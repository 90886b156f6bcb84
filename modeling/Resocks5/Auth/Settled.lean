import Resocks5.Auth.ClaimSafety
import Resocks5.Auth.Dropped

namespace Resocks5.Auth

open Resocks5.Foundation
open World

/-! An account that has a password: whatever else goes on, a verification ends as the plain
comparison with the stored hash would. -/

section

variable {Digest : Type} (crypto : Crypto Digest) (users : List User)

/-- Neither permits nor a cache, and nobody else. -/
def Crypto.plainCheck (request : Request) : Bool :=
  (buildEntries users request.name).any fun entry =>
    entry.enabled && (storedHash users entry.index).any (crypto.verify · request.password)

def Settled (name : String) : Prop :=
  ∀ index, indexOf users name = some index → storedHash users index ≠ some initHash

/-- What a phase of a call to the account leads to; `gone` for a call that was dropped. -/
def Decides (gone : Prop) (request : Request) : Phase → Prop
  | .start | .waitVerifySlot | .prepare => True
  | .readHash index => buildEntries users request.name = some ⟨index, true⟩
  | .verifyStored hash => crypto.plainCheck users request = crypto.verify hash request.password
  | .done accepted => gone ∨ accepted = crypto.plainCheck users request
  | _ => False

def Phase.work? : Phase → Option ClaimWork
  | .waitGate work | .recheckGate work | .waitClaimSlot work | .waitClaimLock work
  | .recheckLocked work | .fallback work | .persist work _ | .publish work _
  | .cacheClaim work => some work
  | _ => none

/-- A call to the account decides it, any other lets it be. -/
structure Minds (name : String) (gone : Prop) (request : Request) (phase : Phase) : Prop where
  own : request.name = name → Decides crypto users gone request phase
  other : request.name ≠ name → ∀ work, phase.work? = some work →
    indexOf users name ≠ some work.index

variable {Tid : Type} (roster : Tid → Request)

structure Undisturbed (name : String) (gone : Tid → Prop) (world : World Tid Digest) : Prop where
  stored : ∀ index, indexOf users name = some index →
    storedHash world.users index = storedHash users index
  cached : ∀ digest, world.cache name = some digest → ∃ call, (roster call).name = name ∧
    candidate crypto roster call = digest ∧ crypto.plainCheck users (roster call) = true
  calls : ∀ call, Minds crypto users name (gone call) (roster call) (world.phase call)

end

section

variable {Tid Digest : Type} [DecidableEq Tid] [DecidableEq Digest] {crypto : Crypto Digest}
  {users : List User} {roster : Tid → Request} {name : String} {gone : Tid → Prop}
  {world base next : World Tid Digest} {call : Tid} {phase : Phase}

omit [DecidableEq Digest] in
theorem Undisturbed.move (hundisturbed : Undisturbed crypto users roster name gone world)
    (hphase : base.phase = world.phase)
    (hstored : ∀ index, indexOf users name = some index →
      storedHash base.users index = storedHash world.users index)
    (hcached : base.cache name = world.cache name ∨
      base.cache name = some (candidate crypto roster call) ∧ (roster call).name = name ∧
        crypto.plainCheck users (roster call) = true)
    (hminds : Minds crypto users name (gone call) (roster call) phase) :
    Undisturbed crypto users roster name gone (base.goto call phase) where
  stored index hindex := (hstored index hindex).trans (hundisturbed.stored index hindex)
  cached digest hdigest := by
    rw [goto_cache] at hdigest
    obtain hsame | ⟨hnew, hname, haccepted⟩ := hcached
    · exact hundisturbed.cached digest (hsame ▸ hdigest)
    · exact ⟨call, hname, Option.some.inj (hnew.symm.trans hdigest), haccepted⟩
  calls other := by
    by_cases hother : other = call
    · subst hother
      rw [goto_phase_self]
      exact hminds
    · rw [goto_phase_other _ _ _ hother, hphase]
      exact hundisturbed.calls other

omit [DecidableEq Digest] in
theorem Undisturbed.quiet (hundisturbed : Undisturbed crypto users roster name gone world)
    (hphase : base.phase = world.phase) (husers : base.users = world.users)
    (hcache : base.cache = world.cache)
    (hminds : Minds crypto users name (gone call) (roster call) phase) :
    Undisturbed crypto users roster name gone (base.goto call phase) :=
  hundisturbed.move hphase (fun index _ => by rw [husers]) (.inl (by rw [hcache])) hminds

omit [DecidableEq Tid] in
theorem Undisturbed.hit (sound : crypto.Sound roster)
    (hundisturbed : Undisturbed crypto users roster name gone world)
    (hname : (roster call).name = name)
    (hhit : cacheMatches world.cache (roster call).name (candidate crypto roster call) = true) :
    crypto.plainCheck users (roster call) = true := by
  obtain ⟨owner, howner, hdigest, haccepted⟩ :=
    hundisturbed.cached _ (hname ▸ of_decide_eq_true hhit)
  have hsame := howner.trans hname.symm
  rw [Crypto.plainCheck] at haccepted ⊢
  rwa [hsame, sound.same_password hsame hdigest] at haccepted

omit [DecidableEq Tid] [DecidableEq Digest] in
theorem plainCheck_enabled {entry : UserEntry}
    (hentry : (buildEntries users (roster call).name).filter UserEntry.enabled = some entry) :
    buildEntries users (roster call).name = some ⟨entry.index, true⟩ := by
  obtain ⟨hbuilt, henabled⟩ := Option.filter_eq_some_iff.mp hentry
  rw [hbuilt, ← henabled]

omit [DecidableEq Tid] [DecidableEq Digest] in
theorem plainCheck_barred
    (hnone : (buildEntries users (roster call).name).filter UserEntry.enabled = none) :
    crypto.plainCheck users (roster call) = false := by
  rw [Crypto.plainCheck]
  cases hbuilt : buildEntries users (roster call).name with
  | none => rfl
  | some entry =>
      have hdisabled : entry.enabled = false := by simpa [hbuilt, Option.filter] using hnone
      simp [hdisabled]

omit [DecidableEq Tid] [DecidableEq Digest] in
theorem plainCheck_stored {index : Nat} {hash : String}
    (hbuilt : buildEntries users (roster call).name = some ⟨index, true⟩)
    (hstored : storedHash users index = some hash) :
    crypto.plainCheck users (roster call) = crypto.verify hash (roster call).password := by
  simp [Crypto.plainCheck, hbuilt, hstored]

theorem Undisturbed.advance_own (sound : crypto.Sound roster) (hsettled : Settled users name)
    (hundisturbed : Undisturbed crypto users roster name gone world)
    (hname : (roster call).name = name) {surroundings : Surroundings}
    (hstep : advance crypto (buildEntries users) roster world call surroundings = some next) :
    Undisturbed crypto users roster name gone next := by
  have hdecides := (hundisturbed.calls call).own hname
  have hown {phase : Phase} (hphase : Decides crypto users (gone call) (roster call) phase) :
      Minds crypto users name (gone call) (roster call) phase :=
    ⟨fun _ => hphase, fun hother => absurd hname hother⟩
  cases hphase : world.phase call with
  | start =>
      rw [advance, hphase] at hstep
      obtain rfl := Option.some.inj hstep
      unfold begin
      dsimp only
      split
      · exact hundisturbed.quiet rfl rfl rfl (hown trivial)
      · split
        · rename_i hdisabled
          refine hundisturbed.quiet rfl rfl rfl (hown (.inr (plainCheck_barred ?_).symm))
          cases hbuilt : buildEntries users (roster call).name with
          | none => rfl
          | some entry =>
              have hbarred : entry.enabled = false := by simpa [hbuilt] using hdisabled
              simp [Option.filter, hbarred]
        · split
          · rename_i hhit
            exact hundisturbed.quiet rfl rfl rfl
              (hown (.inr (hundisturbed.hit sound hname hhit).symm))
          · exact hundisturbed.quiet rfl rfl rfl (hown trivial)
  | waitVerifySlot =>
      simp only [advance, hphase, Option.ite_none_left_eq_some] at hstep
      obtain ⟨-, rfl⟩ := hstep.imp id Option.some.inj
      exact hundisturbed.quiet rfl rfl rfl (hown trivial)
  | prepare =>
      rw [advance, hphase] at hstep
      obtain rfl := Option.some.inj hstep
      unfold verifyPrepare
      dsimp only
      split
      · rename_i hnone
        exact hundisturbed.quiet (dropVerifySlot_phase _ _) (dropVerifySlot_users _ _)
          (dropVerifySlot_cache _ _) (hown (.inr (plainCheck_barred hnone).symm))
      · rename_i entry hentry
        split
        · rename_i hhit
          exact hundisturbed.quiet (dropVerifySlot_phase _ _) (dropVerifySlot_users _ _)
            (dropVerifySlot_cache _ _) (hown (.inr (hundisturbed.hit sound hname hhit).symm))
        · exact hundisturbed.quiet rfl rfl rfl (hown (plainCheck_enabled hentry))
  | readHash index =>
      rw [advance, hphase] at hstep
      obtain ⟨hash, hhash, rfl⟩ := Option.map_eq_some_iff.mp hstep
      rw [hphase] at hdecides
      have hindex : indexOf users name = some index := by
        rw [indexOf, ← hname, hdecides, Option.map_some]
      rw [hundisturbed.stored index hindex] at hhash
      have hreal : hash ≠ initHash := fun hinit => hsettled index hindex (hinit ▸ hhash)
      rw [if_pos hreal]
      exact hundisturbed.quiet rfl rfl rfl (hown (plainCheck_stored hdecides hhash))
  | verifyStored hash =>
      rw [advance, hphase] at hstep
      obtain rfl := Option.some.inj hstep
      rw [hphase] at hdecides
      unfold verifyAgainstCommitted
      dsimp only
      split
      · rename_i hverified
        have haccepted := hdecides.trans hverified
        refine hundisturbed.move (dropVerifySlot_phase _ _) (fun index _ => ?_)
          (.inr ⟨?_, hname, haccepted⟩) (hown (.inr haccepted.symm))
        · rw [dropVerifySlot_users]
        · dsimp only
          rw [hname, Function.update_self]
      · rename_i hrefused
        exact hundisturbed.quiet (dropVerifySlot_phase _ _) (dropVerifySlot_users _ _)
          (dropVerifySlot_cache _ _)
          (hown (.inr (hdecides.trans (Bool.eq_false_iff.mpr hrefused)).symm))
  | done accepted =>
      rw [advance, hphase] at hstep
      cases hstep
  | _ =>
      rw [hphase] at hdecides
      exact absurd hdecides id

omit [DecidableEq Tid] [DecidableEq Digest] in
theorem afterCommit_work (request : Request) (hash : String) :
    (afterCommit request hash).work? = none := by
  unfold afterCommit
  cases request.mode <;> rfl

omit [DecidableEq Tid] [DecidableEq Digest] in
theorem Minds.of_other {gone : Prop} {request : Request} (hname : request.name ≠ name)
    (hwork : ∀ work, phase.work? = some work → indexOf users name ≠ some work.index) :
    Minds crypto users name gone request phase :=
  ⟨fun hown => absurd hown hname, fun _ => hwork⟩

omit [DecidableEq Tid] [DecidableEq Digest] in
theorem Minds.idle {gone : Prop} {request : Request} (hname : request.name ≠ name)
    (hnone : phase.work? = none) : Minds crypto users name gone request phase :=
  .of_other hname fun work hwork => by rw [hnone] at hwork; cases hwork

omit [DecidableEq Tid] [DecidableEq Digest] in
theorem Undisturbed.keeps (hundisturbed : Undisturbed crypto users roster name gone world)
    (hname : (roster call).name ≠ name) {work : ClaimWork}
    (hwork : (world.phase call).work? = some work) (hphase : phase.work? = some work) :
    Minds crypto users name (gone call) (roster call) phase :=
  .of_other hname fun other hother => by
    obtain rfl := Option.some.inj (hphase.symm.trans hother)
    exact (hundisturbed.calls call).other hname _ hwork

theorem Undisturbed.start_other
    (hundisturbed : Undisturbed crypto users roster name gone world)
    (hname : (roster call).name ≠ name) {surroundings : Surroundings}
    (hphase : world.phase call = .start)
    (hstep : advance crypto (buildEntries users) roster world call surroundings = some next) :
    Undisturbed crypto users roster name gone next := by
  rw [advance, hphase] at hstep
  obtain rfl := Option.some.inj hstep
  unfold begin
  dsimp only
  split
  · exact hundisturbed.quiet rfl rfl rfl (.idle hname rfl)
  · split
    · exact hundisturbed.quiet rfl rfl rfl (.idle hname rfl)
    · split <;> exact hundisturbed.quiet rfl rfl rfl (.idle hname rfl)

theorem Undisturbed.prepare_other
    (hundisturbed : Undisturbed crypto users roster name gone world)
    (hname : (roster call).name ≠ name) {surroundings : Surroundings}
    (hphase : world.phase call = .prepare)
    (hstep : advance crypto (buildEntries users) roster world call surroundings = some next) :
    Undisturbed crypto users roster name gone next := by
  rw [advance, hphase] at hstep
  obtain rfl := Option.some.inj hstep
  unfold verifyPrepare
  dsimp only
  split
  · exact hundisturbed.quiet (dropVerifySlot_phase _ _) (dropVerifySlot_users _ _)
      (dropVerifySlot_cache _ _) (.idle hname rfl)
  · split
    · exact hundisturbed.quiet (dropVerifySlot_phase _ _) (dropVerifySlot_users _ _)
        (dropVerifySlot_cache _ _) (.idle hname rfl)
    · exact hundisturbed.quiet rfl rfl rfl (.idle hname rfl)

theorem Undisturbed.prepareClaim_other
    (hundisturbed : Undisturbed crypto users roster name gone world)
    (hname : (roster call).name ≠ name) {surroundings : Surroundings}
    (hphase : world.phase call = .prepareClaim)
    (hstep : advance crypto (buildEntries users) roster world call surroundings = some next) :
    Undisturbed crypto users roster name gone next := by
  rw [advance, hphase] at hstep
  obtain rfl := Option.some.inj hstep
  have hreject : Undisturbed crypto users roster name gone
      ((world.dropVerifySlot (roster call).mode).goto call (.done false)) :=
    hundisturbed.quiet (dropVerifySlot_phase _ _) (dropVerifySlot_users _ _)
      (dropVerifySlot_cache _ _) (.idle hname rfl)
  unfold prepareClaim
  dsimp only
  split
  · exact hreject
  · split
    · exact hreject
    · split
      · exact hreject
      · exact hundisturbed.quiet rfl rfl rfl (.idle hname rfl)

theorem Undisturbed.fastPath_other
    (hundisturbed : Undisturbed crypto users roster name gone world)
    (hname : (roster call).name ≠ name) {surroundings : Surroundings} {newHash : String}
    (hphase : world.phase call = .fastPath newHash)
    (hstep : advance crypto (buildEntries users) roster world call surroundings = some next) :
    Undisturbed crypto users roster name gone next := by
  rw [advance, hphase] at hstep
  obtain rfl := Option.some.inj hstep
  unfold claimFastPath
  dsimp only
  split
  · exact hundisturbed.quiet (dropVerifySlot_phase _ _) (dropVerifySlot_users _ _)
      (dropVerifySlot_cache _ _) (.idle hname rfl)
  · rename_i entry hentry
    have hindex : indexOf users (roster call).name = some entry.index := by
      rw [indexOf, hentry, Option.map_some]
    split
    · exact hundisturbed.quiet rfl rfl rfl (.idle hname rfl)
    · refine hundisturbed.quiet (dropVerifySlot_phase _ _) (dropVerifySlot_users _ _)
        (dropVerifySlot_cache _ _) (.of_other hname fun work hwork hsame => ?_)
      have hwork : work.index = entry.index := by
        split at hwork <;> cases hwork <;> rfl
      exact hname (indexOf_injective hindex (hwork ▸ hsame))

theorem Undisturbed.recheckLocked_other
    (hundisturbed : Undisturbed crypto users roster name gone world)
    (hname : (roster call).name ≠ name) {surroundings : Surroundings} {work : ClaimWork}
    (hphase : world.phase call = .recheckLocked work)
    (hstep : advance crypto (buildEntries users) roster world call surroundings = some next) :
    Undisturbed crypto users roster name gone next := by
  rw [advance, hphase] at hstep
  obtain rfl := Option.some.inj hstep
  unfold recheckLocked
  split
  · exact hundisturbed.quiet (leaveCommit_phase _ _) (leaveCommit_users _ _)
      (leaveCommit_cache _ _) (.idle hname (afterCommit_work _ _))
  · exact hundisturbed.quiet rfl rfl rfl (hundisturbed.keeps hname (by rw [hphase]; rfl) rfl)

theorem Undisturbed.publish_other
    (hundisturbed : Undisturbed crypto users roster name gone world)
    (hname : (roster call).name ≠ name) {surroundings : Surroundings} {work : ClaimWork}
    {outcome : ClaimPersist}
    (hphase : world.phase call = .publish work outcome)
    (hstep : advance crypto (buildEntries users) roster world call surroundings = some next) :
    Undisturbed crypto users roster name gone next := by
  rw [advance, hphase] at hstep
  obtain rfl := Option.some.inj hstep
  have hwork : (world.phase call).work? = some work := by rw [hphase]; rfl
  have hstored (hash : String) (index : Nat) (hindex : indexOf users name = some index) :
      storedHash (publishHash world.users work.index hash) index =
        storedHash world.users index := by
    have hother : index ≠ work.index := fun hsame =>
      (hundisturbed.calls call).other hname work hwork (hsame ▸ hindex)
    exact storedHash_publishHash_other hother hash
  cases outcome with
  | written =>
      exact hundisturbed.move rfl (hstored _) (.inl rfl) (hundisturbed.keeps hname hwork rfl)
  | diskHashChanged hash =>
      refine hundisturbed.move (leaveCommit_phase _ _) (fun index hindex => ?_) (.inl ?_)
        (.idle hname (afterCommit_work _ _))
      · rw [leaveCommit_users]
        exact hstored _ index hindex
      · rw [leaveCommit_cache]
  | failed reason =>
      refine hundisturbed.move (leaveCommit_phase _ _) (fun index hindex => ?_) (.inl ?_)
        (.idle hname rfl)
      · rw [leaveCommit_users]
        exact hstored _ index hindex
      · rw [leaveCommit_cache]

theorem Undisturbed.cacheClaim_other
    (hundisturbed : Undisturbed crypto users roster name gone world)
    (hname : (roster call).name ≠ name) {surroundings : Surroundings} {work : ClaimWork}
    (hphase : world.phase call = .cacheClaim work)
    (hstep : advance crypto (buildEntries users) roster world call surroundings = some next) :
    Undisturbed crypto users roster name gone next := by
  rw [advance, hphase] at hstep
  obtain rfl := Option.some.inj hstep
  refine hundisturbed.move (leaveCommit_phase _ _) (fun index _ => ?_) (.inl ?_) (.idle hname rfl)
  · rw [leaveCommit_users]
  · rw [leaveCommit_cache]
    exact Function.update_of_ne (Ne.symm hname) _ _

theorem Undisturbed.verifyStored_other
    (hundisturbed : Undisturbed crypto users roster name gone world)
    (hname : (roster call).name ≠ name) {surroundings : Surroundings} {hash : String}
    (hphase : world.phase call = .verifyStored hash)
    (hstep : advance crypto (buildEntries users) roster world call surroundings = some next) :
    Undisturbed crypto users roster name gone next := by
  rw [advance, hphase] at hstep
  obtain rfl := Option.some.inj hstep
  unfold verifyAgainstCommitted
  dsimp only
  split
  · refine hundisturbed.move (dropVerifySlot_phase _ _) (fun index _ => ?_)
      (.inl (Function.update_of_ne (Ne.symm hname) _ _))
      (.idle hname rfl)
    rw [dropVerifySlot_users]
  · exact hundisturbed.quiet (dropVerifySlot_phase _ _) (dropVerifySlot_users _ _)
      (dropVerifySlot_cache _ _) (.idle hname rfl)

theorem Undisturbed.advance_other
    (hundisturbed : Undisturbed crypto users roster name gone world)
    (hname : (roster call).name ≠ name) {surroundings : Surroundings}
    (hstep : advance crypto (buildEntries users) roster world call surroundings = some next) :
    Undisturbed crypto users roster name gone next := by
  cases hphase : world.phase call with
  | start => exact hundisturbed.start_other hname hphase hstep
  | prepare => exact hundisturbed.prepare_other hname hphase hstep
  | readHash index =>
      rw [advance, hphase] at hstep
      obtain ⟨hash, -, rfl⟩ := Option.map_eq_some_iff.mp hstep
      refine hundisturbed.quiet rfl rfl rfl (.idle hname ?_)
      split <;> rfl
  | prepareClaim => exact hundisturbed.prepareClaim_other hname hphase hstep
  | fastPath newHash => exact hundisturbed.fastPath_other hname hphase hstep
  | recheckGate work =>
      rw [advance, hphase] at hstep
      obtain rfl := Option.some.inj hstep
      unfold recheckGate
      split
      · exact hundisturbed.quiet rfl rfl rfl (.idle hname rfl)
      · exact hundisturbed.quiet rfl rfl rfl (hundisturbed.keeps hname (by rw [hphase]; rfl) rfl)
  | recheckLocked work => exact hundisturbed.recheckLocked_other hname hphase hstep
  | fallback work =>
      rw [advance, hphase] at hstep
      obtain rfl := Option.some.inj hstep
      exact hundisturbed.quiet rfl rfl rfl (hundisturbed.keeps hname (by rw [hphase]; rfl) rfl)
  | persist work fallbackUsers =>
      rw [advance, hphase] at hstep
      obtain rfl := Option.some.inj hstep
      exact hundisturbed.quiet rfl rfl rfl (hundisturbed.keeps hname (by rw [hphase]; rfl) rfl)
  | publish work outcome => exact hundisturbed.publish_other hname hphase hstep
  | cacheClaim work => exact hundisturbed.cacheClaim_other hname hphase hstep
  | verifyStored hash => exact hundisturbed.verifyStored_other hname hphase hstep
  | waitVerifySlot | waitReverify hash =>
      simp only [advance, hphase, Option.ite_none_left_eq_some] at hstep
      obtain ⟨-, rfl⟩ := hstep.imp id Option.some.inj
      exact hundisturbed.quiet rfl rfl rfl (.idle hname rfl)
  | waitGate work | waitClaimSlot work | waitClaimLock work =>
      simp only [advance, hphase, Option.ite_none_left_eq_some] at hstep
      obtain ⟨-, rfl⟩ := hstep.imp id Option.some.inj
      exact hundisturbed.quiet rfl rfl rfl (hundisturbed.keeps hname (by rw [hphase]; rfl) rfl)
  | done accepted =>
      rw [advance, hphase] at hstep
      cases hstep

/-! Runs in which calls are dropped. -/

def Dropped (actions : List (ServerAction Tid)) (call : Tid) : Prop := .drop call ∈ actions

omit [DecidableEq Tid] [DecidableEq Digest] in
theorem Undisturbed.later {after : Tid → Prop} (hgone : ∀ call, gone call → after call)
    (hundisturbed : Undisturbed crypto users roster name gone world) :
    Undisturbed crypto users roster name after world where
  stored := hundisturbed.stored
  cached := hundisturbed.cached
  calls call := by
    refine ⟨fun hname => ?_, (hundisturbed.calls call).other⟩
    have hdecides := (hundisturbed.calls call).own hname
    cases hphase : world.phase call with
    | done accepted =>
        rw [hphase] at hdecides
        exact hdecides.imp_left (hgone call)
    | _ =>
        rw [hphase] at hdecides
        exact hdecides

omit [DecidableEq Tid] [DecidableEq Digest] in
theorem minds_gone (hgone : gone call) :
    Minds crypto users name (gone call) (roster call) (.done false) :=
  ⟨fun _ => .inl hgone, fun _ work hwork => by cases hwork⟩

structure Standing (crypto : Crypto Digest) (users : List User) (roster : Tid → Request)
    (name : String) (gone : Tid → Prop) (server : Server Tid Digest) : Prop where
  undisturbed : Undisturbed crypto users roster name gone server.world
  marked : ∀ call, server.dropped call = true → gone call

theorem Standing.step (sound : crypto.Sound roster) (hsettled : Settled users name)
    {server after : Server Tid Digest} {actions : List (ServerAction Tid)}
    {action : ServerAction Tid}
    (hstanding : Standing crypto users roster name (Dropped actions) server)
    (hstep : server.step crypto (buildEntries users) roster action = some after) :
    Standing crypto users roster name (Dropped (actions ++ [action])) after := by
  have hmore (call : Tid) (hdropped : Dropped actions call) :
      Dropped (actions ++ [action]) call := List.mem_append_left _ hdropped
  have hundisturbed := hstanding.undisturbed.later hmore
  have hmarked (call : Tid) (hdropped : server.dropped call = true) :=
    hmore call (hstanding.marked call hdropped)
  cases action with
  | advance call surroundings =>
      obtain ⟨next, hnext, rfl⟩ := Option.map_eq_some_iff.mp hstep
      refine ⟨?_, hmarked⟩
      have hadvanced : Undisturbed crypto users roster name
          (Dropped (actions ++ [.advance call surroundings])) next := by
        by_cases hname : (roster call).name = name
        · exact hundisturbed.advance_own sound hsettled hname hnext
        · exact hundisturbed.advance_other hname hnext
      dsimp only
      unfold Server.returned
      split
      · rename_i hreturned
        rw [Bool.and_eq_true] at hreturned
        exact hadvanced.quiet rfl rfl rfl (minds_gone (hmarked call hreturned.1))
      · exact hadvanced
  | drop call =>
      have hnow : Dropped (actions ++ [.drop call]) call :=
        List.mem_append_right _ List.mem_cons_self
      rw [Server.step] at hstep
      split at hstep
      · cases hstep
      · split at hstep
        · obtain rfl := Option.some.inj hstep
          refine ⟨?_, hmarked⟩
          dsimp only
          unfold World.dropFrame
          split
          · exact hundisturbed.quiet rfl rfl rfl (minds_gone hnow)
          · exact hundisturbed.quiet rfl rfl rfl (minds_gone hnow)
        · split at hstep
          · obtain rfl := Option.some.inj hstep
            refine ⟨hundisturbed, fun other hother => ?_⟩
            by_cases hsame : other = call
            · exact hsame ▸ hnow
            · refine hmarked other ?_
              dsimp only at hother
              rwa [Function.update_of_ne hsame] at hother
          · cases hstep
  | editDisk content =>
      obtain rfl := Option.some.inj hstep
      exact ⟨⟨hundisturbed.stored, hundisturbed.cached, hundisturbed.calls⟩, hmarked⟩

/-- Whoever else logs in, claims an account or goes away, and whatever becomes of the users file: a
login to an account with a password that was not dropped ends as the plain comparison would, and the
stored hash stays. -/
theorem settled_logins_exact (sound : crypto.Sound roster) (hsettled : Settled users name)
    {disk : Option (List User)} {workers : Nat} {actions : List (ServerAction Tid)}
    {server : Server Tid Digest}
    (hrun : run (Server.step crypto (buildEntries users) roster)
      (initialServer users disk workers) actions = some server) :
    (∀ index, indexOf users name = some index →
      storedHash server.world.users index = storedHash users index) ∧
    ∀ call, (roster call).name = name → .drop call ∉ actions →
      ∀ accepted, server.world.phase call = .done accepted →
        accepted = crypto.plainCheck users (roster call) := by
  have hstart : Standing crypto users roster name (Dropped [])
      (initialServer users disk workers : Server Tid Digest) :=
    { undisturbed :=
        { stored := fun _ _ => rfl
          cached := fun _ hdigest => by cases hdigest
          calls := fun call => ⟨fun _ => trivial, fun _ work hwork => by cases hwork⟩ }
      marked := fun _ hdropped => by cases hdropped }
  let Inv (actions : List (ServerAction Tid)) (server : Server Tid Digest) : Prop :=
    Standing crypto users roster name (Dropped actions) server
  have hkeeps : ∀ actions server action after, Inv actions server →
      server.step crypto (buildEntries users) roster action = some after →
      Inv (actions ++ [action]) after :=
    fun _ _ _ _ hstanding hstep => Standing.step sound hsettled hstanding hstep
  have hstanding : Inv actions server := run_history hkeeps hrun hstart
  refine ⟨hstanding.undisturbed.stored, fun call hname hkept accepted hdone => ?_⟩
  have hdecides := (hstanding.undisturbed.calls call).own hname
  rw [hdone] at hdecides
  exact hdecides.resolve_left hkept

end

/-- Bob has a password, and somebody guesses at it while alice logs in for the first time. -/
def mixedUsers : List User :=
  [⟨"alice", "init", true, false, none⟩, ⟨"bob", "$real", true, false, none⟩]

inductive Caller where
  | claimant
  | owner
  | intruder
  deriving DecidableEq, Repr

def mixedLogins : Caller → Request
  | .claimant => ⟨.verifyAsync, "alice", "first"⟩
  | .owner => ⟨.verifyAsync, "bob", "real"⟩
  | .intruder => ⟨.verifyAsync, "bob", "guess"⟩

def mixedSchedule : List (ServerAction Caller) :=
  List.replicate 10 (.advance .claimant { salt := some [] }) ++ [.drop .claimant] ++
  List.replicate 5 (.advance .intruder {}) ++ List.replicate 5 (.advance .owner {})

theorem settled_logins_exact_mixed :
    ∃ server, run (Server.step plainCrypto (buildEntries mixedUsers) mixedLogins)
        (initialServer mixedUsers (some mixedUsers) 1) mixedSchedule = some server ∧
      server.world.phase .owner = .done true ∧ server.world.phase .intruder = .done false ∧
      true = plainCrypto.plainCheck mixedUsers (mixedLogins .owner) := by
  obtain ⟨server, hrun⟩ : ∃ server,
      run (Server.step plainCrypto (buildEntries mixedUsers) mixedLogins)
        (initialServer mixedUsers (some mixedUsers) 1) mixedSchedule = some server := ⟨_, rfl⟩
  have hdone : server.world.phase .owner = .done true ∧
      server.world.phase .intruder = .done false := by
    obtain rfl := Option.some.inj hrun
    decide
  have sound : plainCrypto.Sound mixedLogins :=
    ⟨plainCrypto_sound.verifies, plainCrypto_sound.notSentinel, fun _ _ hdigest => hdigest⟩
  have hsettled : Settled mixedUsers "bob" := by
    intro index hindex
    have hbob : indexOf mixedUsers "bob" = some 1 := by decide
    obtain rfl := Option.some.inj (hbob.symm.trans hindex)
    decide
  have hkept : .drop .owner ∉ mixedSchedule := by simp [mixedSchedule]
  exact ⟨server, hrun, hdone.1, hdone.2,
    (settled_logins_exact sound hsettled hrun).2 .owner rfl hkept true hdone.1⟩

end Resocks5.Auth
