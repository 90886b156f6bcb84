import Resocks5.Auth.ClaimStep

namespace Resocks5.Auth

open Resocks5.Foundation

/-! First-login safety over every interleaving of concurrent verifications. -/

section

variable {Tid Digest : Type} [DecidableEq Tid] [DecidableEq Digest]
  {crypto : Crypto Digest} {users : List User} {roster : Tid → Request}
  {disk : Option (List User)} {workers : Nat}
  {world next : World Tid Digest} {call : Tid}

theorem initialWorld_safe :
    Safe crypto users roster disk workers
      (initialWorld users disk workers : World Tid Digest) where
  reachable := .refl _ _
  names := rfl
  locked := by
    intro call hheld
    exact absurd hheld (by simp [initialWorld, Phase.locked])
  cached := by
    intro name digest hentry
    exact absurd hentry (by simp [initialWorld])
  origin := by
    intro name index hash _ hinit hstored hreal
    have heq : some initHash = some hash := hinit.symm.trans hstored
    exact absurd (Option.some.inj heq).symm hreal
  calls := by
    intro call
    simp [CallInv, initialWorld]

omit [DecidableEq Tid] [DecidableEq Digest] in
theorem storedHash_present
    (hnames : world.users.map User.name = users.map User.name)
    {name : String} {index : Nat} (hindex : indexOf users name = some index) :
    ∃ hash, storedHash world.users index = some hash := by
  have hname := indexOf_name hindex
  rw [← hnames, List.getElem?_map] at hname
  obtain ⟨user, huser, -⟩ := Option.map_eq_some_iff.mp hname
  exact ⟨user.hash, by simp [storedHash, huser]⟩

theorem advance_safe (sound : crypto.Sound roster)
    (safe : Safe crypto users roster disk workers world)
    {surroundings : Surroundings}
    (hstep : advance crypto (buildEntries users) roster world call
      surroundings = some next) :
    Safe crypto users roster disk workers next := by
  have hreach : Reaches (step crypto (buildEntries users) roster) world next :=
    .single (show step crypto (buildEntries users) roster world
      (.advance call surroundings) = some next from hstep)
  have hknown := safe.calls call
  unfold advance at hstep
  cases hphase : world.phase call with
  | start =>
      rw [hphase] at hstep
      exact begin_safe sound safe hreach (Option.some.inj hstep)
  | waitVerifySlot =>
      simp only [hphase, Option.ite_none_left_eq_some] at hstep
      obtain ⟨-, rfl⟩ := hstep.imp id Option.some.inj
      exact safe.moved hreach rfl rfl rfl rfl rfl (by simp [CallInv])
  | prepare =>
      rw [hphase] at hstep
      exact verifyPrepare_safe sound safe hreach (Option.some.inj hstep)
  | readHash index =>
      rw [hphase] at hstep
      obtain ⟨hash, hhash, hnext⟩ := Option.map_eq_some_iff.mp hstep
      exact readHash_safe safe hreach hphase hhash hnext
  | prepareClaim =>
      rw [hphase] at hstep
      exact prepareClaim_safe sound safe hreach (Option.some.inj hstep)
  | fastPath newHash =>
      rw [hphase] at hstep
      exact claimFastPath_safe safe hreach hphase (Option.some.inj hstep)
  | waitGate work =>
      simp only [hphase, Option.ite_none_left_eq_some] at hstep
      obtain ⟨-, rfl⟩ := hstep.imp id Option.some.inj
      simp only [CallInv, hphase] at hknown
      exact safe.moved hreach rfl rfl rfl rfl rfl (by simpa [CallInv])
  | recheckGate work =>
      rw [hphase] at hstep
      exact recheckGate_safe safe hreach hphase (Option.some.inj hstep)
  | waitClaimSlot work =>
      simp only [hphase, Option.ite_none_left_eq_some] at hstep
      obtain ⟨-, rfl⟩ := hstep.imp id Option.some.inj
      simp only [CallInv, hphase] at hknown
      exact safe.moved hreach rfl rfl rfl rfl rfl (by simpa [CallInv])
  | waitClaimLock work =>
      simp only [hphase, Option.ite_none_left_eq_some] at hstep
      obtain ⟨hfree, hnext⟩ := hstep.imp id Option.some.inj
      exact claimLock_safe safe hreach hphase (by simpa using hfree) hnext
  | recheckLocked work =>
      rw [hphase] at hstep
      simp only [CallInv, hphase] at hknown
      obtain ⟨hash, hpresent⟩ := storedHash_present safe.names hknown.1
      exact recheckLocked_safe safe hreach hphase hpresent
        (Option.some.inj hstep)
  | fallback work =>
      rw [hphase] at hstep
      exact claimFallback_safe safe hreach hphase (Option.some.inj hstep)
  | persist work fallbackUsers =>
      rw [hphase] at hstep
      exact claimPersist_safe safe hreach hphase (Option.some.inj hstep)
  | publish work outcome =>
      rw [hphase] at hstep
      exact claimPublish_safe safe hreach hphase (Option.some.inj hstep)
  | cacheClaim work =>
      rw [hphase] at hstep
      exact cacheClaim_safe safe hreach hphase (Option.some.inj hstep)
  | waitReverify hash =>
      simp only [hphase, Option.ite_none_left_eq_some] at hstep
      obtain ⟨-, rfl⟩ := hstep.imp id Option.some.inj
      simp only [CallInv, hphase] at hknown
      exact safe.moved hreach rfl rfl rfl rfl rfl
        (by simpa [CallInv, Published] using hknown)
  | verifyStored hash =>
      rw [hphase] at hstep
      exact verifyAgainstCommitted_safe safe hreach hphase
        (Option.some.inj hstep)
  | done accepted =>
      rw [hphase] at hstep
      exact absurd hstep (by simp)

theorem editDisk_safe
    (safe : Safe crypto users roster disk workers world)
    (content : Option (List User)) :
    Safe crypto users roster disk workers { world with disk := content } := by
  have hreach : Reaches (step crypto (buildEntries users) roster) world
      { world with disk := content } :=
    .single (show step crypto (buildEntries users) roster world
      (.editDisk content) = some _ from rfl)
  exact {
    reachable := safe.reachable.trans hreach
    names := safe.names
    locked := safe.locked
    cached := safe.cached
    origin := fun _ _ _ hindex hinit hstored hreal =>
      safe.origin_later hreach hindex hinit hstored hreal
    calls := fun call => (safe.calls call).frame hreach (fun _ _ _ h => h) rfl
      fun _ => rfl }

theorem step_safe (sound : crypto.Sound roster)
    (safe : Safe crypto users roster disk workers world) {action : Action Tid}
    (hstep : step crypto (buildEntries users) roster world action =
      some next) :
    Safe crypto users roster disk workers next := by
  cases action with
  | advance call surroundings => exact advance_safe sound safe hstep
  | editDisk content =>
      obtain rfl := Option.some.inj hstep
      exact editDisk_safe safe content

theorem reachable_safe (sound : crypto.Sound roster)
    (hreach : ReachableWorld crypto users roster disk workers world) :
    Safe crypto users roster disk workers world :=
  hreach.preserves (fun _ _ _ hstep safe => step_safe sound safe hstep)
    initialWorld_safe

theorem advance_users {surroundings : Surroundings}
    (hstep : advance crypto (buildEntries users) roster world call
      surroundings = some next) :
    next.users = world.users ∨
      ∃ work outcome hash, world.phase call = .publish work outcome ∧
        next.users = publishHash world.users work.index hash := by
  unfold advance at hstep
  cases hphase : world.phase call with
  | publish work outcome =>
      rw [hphase] at hstep
      obtain rfl := Option.some.inj hstep
      cases outcome with
      | written => exact .inr ⟨work, .written, _, rfl, rfl⟩
      | diskHashChanged hash =>
          exact .inr ⟨work, .diskHashChanged hash, hash, rfl,
            by simp [claimPublish]⟩
      | failed reason =>
          exact .inr ⟨work, .failed reason, initHash, rfl,
            by simp [claimPublish]⟩
  | start =>
      rw [hphase] at hstep
      obtain rfl := Option.some.inj hstep
      left
      unfold begin
      dsimp only
      split
      · rfl
      · split
        · rfl
        · split <;> rfl
  | prepare =>
      rw [hphase] at hstep
      obtain rfl := Option.some.inj hstep
      left
      unfold verifyPrepare
      dsimp only
      split
      · simp
      · split <;> simp
  | readHash index =>
      rw [hphase] at hstep
      obtain ⟨hash, -, rfl⟩ := Option.map_eq_some_iff.mp hstep
      exact .inl rfl
  | prepareClaim =>
      rw [hphase] at hstep
      obtain rfl := Option.some.inj hstep
      left
      unfold prepareClaim
      dsimp only
      split
      · simp
      · split
        · simp
        · split <;> simp
  | fastPath newHash =>
      rw [hphase] at hstep
      obtain rfl := Option.some.inj hstep
      left
      unfold claimFastPath
      dsimp only
      split
      · simp
      · split <;> simp
  | recheckGate work =>
      rw [hphase] at hstep
      obtain rfl := Option.some.inj hstep
      left
      unfold recheckGate
      split <;> rfl
  | recheckLocked work =>
      rw [hphase] at hstep
      obtain rfl := Option.some.inj hstep
      left
      unfold recheckLocked
      split <;> simp
  | fallback work | persist work fallbackUsers =>
      rw [hphase] at hstep
      obtain rfl := Option.some.inj hstep
      exact .inl rfl
  | cacheClaim work =>
      rw [hphase] at hstep
      obtain rfl := Option.some.inj hstep
      exact .inl (by simp [cacheClaim])
  | verifyStored hash =>
      rw [hphase] at hstep
      obtain rfl := Option.some.inj hstep
      left
      unfold verifyAgainstCommitted
      dsimp only
      split <;> simp
  | waitVerifySlot | waitGate work | waitClaimSlot work | waitClaimLock work
  | waitReverify hash =>
      simp only [hphase, Option.ite_none_left_eq_some] at hstep
      obtain ⟨-, rfl⟩ := hstep.imp id Option.some.inj
      exact .inl rfl
  | done accepted =>
      rw [hphase] at hstep
      exact absurd hstep (by simp)

theorem step_keeps
    (safe : Safe crypto users roster disk workers world) {action : Action Tid}
    (hstep : step crypto (buildEntries users) roster world action = some next)
    {index : Nat} {kept : String} (hkept : kept ≠ initHash)
    (hstored : storedHash world.users index = some kept) :
    storedHash next.users index = some kept := by
  cases action with
  | editDisk content =>
      obtain rfl := Option.some.inj hstep
      exact hstored
  | advance call surroundings =>
      rcases advance_users hstep with hsame | ⟨work, outcome, hash, hphase, hset⟩
      · rw [hsame]
        exact hstored
      · have hknown := safe.calls call
        simp only [CallInv, hphase] at hknown
        rw [hset]
        exact publishHash_keeps hknown.2.1 hash hkept hstored

theorem published_stays (sound : crypto.Sound roster)
    (hreach : ReachableWorld crypto users roster disk workers world)
    (hlater : Reaches (step crypto (buildEntries users) roster) world next)
    {index : Nat} {kept : String} (hkept : kept ≠ initHash)
    (hstored : storedHash world.users index = some kept) :
    storedHash next.users index = some kept := by
  have hboth := hlater.preserves
    (fun state action after hstep
      (h : Safe crypto users roster disk workers state ∧
        storedHash state.users index = some kept) =>
      ⟨step_safe sound h.1 hstep, step_keeps h.1 hstep hkept h.2⟩)
    ⟨reachable_safe sound hreach, hstored⟩
  exact hboth.2

/-- Concurrent first logins on an unclaimed account: one hash at most is ever
published, it comes from a claim that wrote it or found it in the file, every
accepted password verifies against it, and so does every cached one. -/
theorem first_login_claim_safe (sound : crypto.Sound roster)
    {name : String} {index : Nat} (hindex : indexOf users name = some index)
    (hinit : storedHash users index = some initHash)
    (hreach : ReachableWorld crypto users roster disk workers world) :
    (∃ current, storedHash world.users index = some current ∧
      (current ≠ initHash →
        OnDisk crypto users roster disk workers world name current ∧
        ∀ later, Reaches (step crypto (buildEntries users) roster) world later →
          storedHash later.users index = some current)) ∧
    (∀ call, (roster call).name = name → world.phase call = .done true →
      ∃ hash, storedHash world.users index = some hash ∧ hash ≠ initHash ∧
        crypto.verify hash (roster call).password = true) ∧
    (∀ digest, world.cache name = some digest →
      ∃ hash, storedHash world.users index = some hash ∧ hash ≠ initHash ∧
        (∃ call, (roster call).name = name ∧
          candidate crypto roster call = digest) ∧
        ∀ call, (roster call).name = name →
          candidate crypto roster call = digest →
            crypto.verify hash (roster call).password = true) := by
  have safe := reachable_safe sound hreach
  have hhere : ∀ hash, Published users world name hash →
      storedHash world.users index = some hash ∧ hash ≠ initHash := by
    intro hash ⟨position, hposition, hstored, hreal⟩
    obtain rfl := Option.some.inj (hposition.symm.trans hindex)
    exact ⟨hstored, hreal⟩
  refine ⟨?_, ?_, ?_⟩
  · obtain ⟨current, hcurrent⟩ := storedHash_present safe.names hindex
    refine ⟨current, hcurrent, fun hreal => ⟨?_, fun later hlater => ?_⟩⟩
    · exact safe.origin name index current hindex hinit hcurrent hreal
    · exact published_stays sound hreach hlater hreal hcurrent
  · intro call hname hdone
    have hknown := safe.calls call
    simp only [CallInv, hdone, hname] at hknown
    obtain ⟨hash, hpublished, hverify⟩ := hknown
    obtain ⟨hstored, hreal⟩ := hhere hash hpublished
    exact ⟨hash, hstored, hreal, hverify⟩
  · intro digest hentry
    obtain ⟨owner, hash, hname, hdigest, hpublished, hverify⟩ :=
      safe.cached name digest hentry
    obtain ⟨hstored, hreal⟩ := hhere hash hpublished
    refine ⟨hash, hstored, hreal, ⟨owner, hname, hdigest⟩, ?_⟩
    intro call hcall hsame
    have hpassword := sound.same_password (hname.trans hcall.symm)
      (hdigest.trans hsame.symm)
    exact hpassword ▸ hverify

end

/-- A stand-in for the cryptographic crates with readable values. -/
def plainCrypto : Crypto (List UInt8) where
  phc _ password := some ("$" ++ password)
  verify hash password := hash = "$" ++ password
  mac := id

def claimRace : Fin 3 → Request
  | 0 => ⟨.verify, "alice", "first"⟩
  | 1 => ⟨.verify, "alice", "second"⟩
  | 2 => ⟨.verifyAsync, "alice", "first"⟩

/-- Call 0 loses its answer after the rename landed, call 1 then adopts the
hash from the file, and call 2 logs in with the password that owns it. -/
def claimRaceSchedule : List (Action (Fin 3)) :=
  List.replicate 5 (.advance 1 { salt := some [] }) ++
  List.replicate 10 (.advance 0
    { salt := some [], io := { write := .failedAfterCommit } }) ++
  List.replicate 6 (.advance 1 {}) ++
  List.replicate 5 (.advance 2 {})

theorem plainCrypto_sound : plainCrypto.Sound claimRace where
  verifies := by
    intro salt password hash h
    simp only [plainCrypto, Option.some.injEq] at h
    simp [plainCrypto, h]
  notSentinel := by
    intro salt password hash h heq
    simp only [plainCrypto, Option.some.injEq] at h
    have hhead := congrArg (fun text => text.toList.head?) (h.trans heq)
    simp [initHash] at hhead
  separates := fun _ _ h => h

theorem first_login_claim_safe_race :
    ∃ world, ReachableWorld plainCrypto [⟨"alice", "init", true, false, none⟩]
        claimRace (some [⟨"alice", "init", true, false, none⟩]) 4 world ∧
      world.phase 1 = .done false ∧ world.phase 2 = .done true ∧
      storedHash world.users 0 = some "$first" ∧
      ∃ hash, storedHash world.users 0 = some hash ∧ hash ≠ initHash ∧
        plainCrypto.verify hash (claimRace 2).password = true := by
  obtain ⟨world, hworld⟩ : ∃ world, run (step plainCrypto
      (buildEntries [⟨"alice", "init", true, false, none⟩]) claimRace)
      (initialWorld [⟨"alice", "init", true, false, none⟩]
        (some [⟨"alice", "init", true, false, none⟩]) 4)
      claimRaceSchedule = some world := ⟨_, rfl⟩
  have hreach : ReachableWorld plainCrypto
      [⟨"alice", "init", true, false, none⟩] claimRace
      (some [⟨"alice", "init", true, false, none⟩]) 4 world :=
    ⟨claimRaceSchedule, hworld⟩
  have hfinal : world.phase 1 = .done false ∧ world.phase 2 = .done true ∧
      storedHash world.users 0 = some "$first" := by
    obtain rfl := Option.some.inj hworld
    decide
  have hindex : indexOf [⟨"alice", "init", true, false, none⟩] "alice" =
      some 0 := by decide
  exact ⟨world, hreach, hfinal.1, hfinal.2.1, hfinal.2.2,
    (first_login_claim_safe plainCrypto_sound hindex (by decide) hreach).2.1
      2 rfl hfinal.2.1⟩

end Resocks5.Auth
