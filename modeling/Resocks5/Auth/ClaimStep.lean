import Resocks5.Auth.ClaimInvariant

namespace Resocks5.Auth

open Resocks5.Foundation

/-! Every phase of every call keeps the invariant. -/

section Frame

variable {Tid Digest : Type} (world : World Tid Digest) (call : Tid)
  (phase : Phase) (mode : Mode) (request : Request)

namespace World

@[simp] theorem dropVerifySlot_users :
    (world.dropVerifySlot mode).users = world.users := by cases mode <;> rfl
@[simp] theorem dropVerifySlot_cache :
    (world.dropVerifySlot mode).cache = world.cache := by cases mode <;> rfl
@[simp] theorem dropVerifySlot_claimLock :
    (world.dropVerifySlot mode).claimLock = world.claimLock := by
  cases mode <;> rfl
@[simp] theorem dropVerifySlot_phase :
    (world.dropVerifySlot mode).phase = world.phase := by cases mode <;> rfl

@[simp] theorem leaveCommit_users :
    (world.leaveCommit request).users = world.users := by
  unfold leaveCommit; cases request.mode <;> rfl
@[simp] theorem leaveCommit_cache :
    (world.leaveCommit request).cache = world.cache := by
  unfold leaveCommit; cases request.mode <;> rfl
@[simp] theorem leaveCommit_phase :
    (world.leaveCommit request).phase = world.phase := by
  unfold leaveCommit; cases request.mode <;> rfl

variable [DecidableEq Tid]

@[simp] theorem goto_users : (world.goto call phase).users = world.users := rfl
@[simp] theorem goto_cache : (world.goto call phase).cache = world.cache := rfl
@[simp] theorem goto_disk : (world.goto call phase).disk = world.disk := rfl
@[simp] theorem goto_claimLock :
    (world.goto call phase).claimLock = world.claimLock := rfl
@[simp] theorem goto_phase_self : (world.goto call phase).phase call = phase := by
  simp [goto]

theorem goto_phase_other {other : Tid} (hne : other ≠ call) :
    (world.goto call phase).phase other = world.phase other := by
  simp [goto, hne]

end World

theorem afterCommit_locked (hash : String) :
    (World.afterCommit request hash).locked = false := by
  unfold World.afterCommit
  cases request.mode <;> rfl

end Frame

section Transfer

variable {Tid Digest : Type} [DecidableEq Tid] [DecidableEq Digest]
  {crypto : Crypto Digest} {users : List User} {roster : Tid → Request}
  {disk : Option (List User)} {workers : Nat}
  {world next : World Tid Digest} {call : Tid}

theorem OnDisk.later {name hash : String}
    (h : OnDisk crypto users roster disk workers world name hash)
    (hreach : Reaches (step crypto (buildEntries users) roster) world next) :
    OnDisk crypto users roster disk workers next name hash := by
  obtain ⟨earlier, owner, work, outcome, hearlier, hrest, hclaim⟩ := h
  exact ⟨earlier, owner, work, outcome, hearlier, hrest.trans hreach, hclaim⟩

omit [DecidableEq Tid] [DecidableEq Digest] in
theorem Published.keep {name hash : String}
    (hkeeps : ∀ index kept, kept ≠ initHash →
      storedHash world.users index = some kept →
        storedHash next.users index = some kept)
    (h : Published users world name hash) : Published users next name hash := by
  obtain ⟨index, hindex, hstored, hne⟩ := h
  exact ⟨index, hindex, hkeeps index hash hne hstored, hne⟩

omit [DecidableEq Tid] [DecidableEq Digest] in
theorem CacheInv.keep
    (hkeeps : ∀ index kept, kept ≠ initHash →
      storedHash world.users index = some kept →
        storedHash next.users index = some kept)
    (hcache : next.cache = world.cache)
    (h : CacheInv crypto users roster world) :
    CacheInv crypto users roster next := by
  intro name digest hentry
  rw [hcache] at hentry
  obtain ⟨owner, hash, hname, hdigest, hpublished, hverify⟩ :=
    h name digest hentry
  exact ⟨owner, hash, hname, hdigest, hpublished.keep hkeeps, hverify⟩

theorem CallInv.frame
    (hreach : Reaches (step crypto (buildEntries users) roster) world next)
    (hkeeps : ∀ index kept, kept ≠ initHash →
      storedHash world.users index = some kept →
        storedHash next.users index = some kept)
    (hphase : next.phase call = world.phase call)
    (hquiet : (world.phase call).locked = true → next.users = world.users)
    (h : CallInv crypto users roster disk workers world call) :
    CallInv crypto users roster disk workers next call := by
  unfold CallInv at h ⊢
  rw [hphase]
  generalize world.phase call = phase at h hquiet
  cases phase with
  | start | waitVerifySlot | prepare | prepareClaim => trivial
  | readHash | fastPath => exact h
  | waitGate | recheckGate | waitClaimSlot | waitClaimLock | recheckLocked =>
      exact h
  | fallback work =>
      exact ⟨h.1, by simpa [Unclaimed, hquiet rfl] using h.2⟩
  | persist work fallbackUsers =>
      exact ⟨h.1, by simpa [Unclaimed, hquiet rfl] using h.2.1, h.2.2⟩
  | publish work outcome =>
      refine ⟨h.1, by simpa [Unclaimed, hquiet rfl] using h.2.1, ?_⟩
      cases outcome with
      | written => exact h.2.2.later hreach
      | diskHashChanged hash => exact ⟨h.2.2.1, h.2.2.2.later hreach⟩
      | failed reason => trivial
  | cacheClaim work =>
      exact ⟨h.1, by simpa [hquiet rfl] using h.2⟩
  | waitReverify hash | verifyStored hash => exact Published.keep hkeeps h
  | done accepted =>
      cases accepted with
      | false => trivial
      | true =>
          obtain ⟨hash, hpublished, hverify⟩ := h
          exact ⟨hash, hpublished.keep hkeeps, hverify⟩

theorem Safe.transfer (call : Tid)
    (safe : Safe crypto users roster disk workers world)
    (hreach : Reaches (step crypto (buildEntries users) roster) world next)
    (hothers : ∀ other, other ≠ call → next.phase other = world.phase other)
    (hnames : next.users.map User.name = world.users.map User.name)
    (hkeeps : ∀ index kept, kept ≠ initHash →
      storedHash world.users index = some kept →
        storedHash next.users index = some kept)
    (hexclusive : world.claimLock = some call ∨ next.users = world.users)
    (hlock : ∀ other, other ≠ call → world.claimLock = some other →
      next.claimLock = some other)
    (hown : (next.phase call).locked = true → next.claimLock = some call)
    (hcached : CacheInv crypto users roster next)
    (horigin : ∀ name index hash, indexOf users name = some index →
      storedHash users index = some initHash →
      storedHash next.users index = some hash → hash ≠ initHash →
      OnDisk crypto users roster disk workers next name hash)
    (hcall : CallInv crypto users roster disk workers next call) :
    Safe crypto users roster disk workers next where
  reachable := safe.reachable.trans hreach
  names := hnames.trans safe.names
  locked := by
    intro other hheld
    by_cases heq : other = call
    · subst heq
      exact hown hheld
    · rw [hothers other heq] at hheld
      exact hlock other heq (safe.locked other hheld)
  cached := hcached
  origin := horigin
  calls := by
    intro other
    by_cases heq : other = call
    · subst heq
      exact hcall
    · refine (safe.calls other).frame hreach hkeeps (hothers other heq) ?_
      intro hheld
      rcases hexclusive with hmine | hsame
      · have hother := safe.locked other hheld
        rw [hmine] at hother
        exact absurd (Option.some.inj hother).symm heq
      · exact hsame

theorem Safe.origin_later
    (safe : Safe crypto users roster disk workers world)
    (hreach : Reaches (step crypto (buildEntries users) roster) world next)
    {name : String} {index : Nat} {hash : String}
    (hindex : indexOf users name = some index)
    (hinit : storedHash users index = some initHash)
    (hstored : storedHash world.users index = some hash)
    (hne : hash ≠ initHash) :
    OnDisk crypto users roster disk workers next name hash :=
  (safe.origin name index hash hindex hinit hstored hne).later hreach

theorem Safe.quiet
    (safe : Safe crypto users roster disk workers world)
    (hreach : Reaches (step crypto (buildEntries users) roster) world next)
    (hothers : ∀ other, other ≠ call → next.phase other = world.phase other)
    (husers : next.users = world.users) (hcache : next.cache = world.cache)
    (hlock : ∀ other, other ≠ call → world.claimLock = some other →
      next.claimLock = some other)
    (hown : (next.phase call).locked = true → next.claimLock = some call)
    (hcall : CallInv crypto users roster disk workers next call) :
    Safe crypto users roster disk workers next := by
  have hkeeps : ∀ index kept, kept ≠ initHash →
      storedHash world.users index = some kept →
        storedHash next.users index = some kept := by
    intro index kept _ hstored
    rw [husers]
    exact hstored
  refine safe.transfer call hreach hothers (by rw [husers]) hkeeps (.inr husers)
    hlock hown (safe.cached.keep hkeeps hcache) ?_ hcall
  intro name index hash hindex hinit hstored hne
  rw [husers] at hstored
  exact safe.origin_later hreach hindex hinit hstored hne

theorem Safe.quiet_unlocked
    (safe : Safe crypto users roster disk workers world)
    (hreach : Reaches (step crypto (buildEntries users) roster) world next)
    (hothers : ∀ other, other ≠ call → next.phase other = world.phase other)
    (husers : next.users = world.users) (hcache : next.cache = world.cache)
    (hclaimLock : next.claimLock = world.claimLock)
    (hfree : (next.phase call).locked = false)
    (hcall : CallInv crypto users roster disk workers next call) :
    Safe crypto users roster disk workers next := by
  refine safe.quiet hreach hothers husers hcache ?_ ?_ hcall
  · intro other _ hheld
    rw [hclaimLock]
    exact hheld
  · intro hheld
    rw [hfree] at hheld
    exact absurd hheld (by decide)

theorem Safe.moved {base : World Tid Digest} {phase : Phase}
    (safe : Safe crypto users roster disk workers world)
    (hreach : Reaches (step crypto (buildEntries users) roster) world
      (base.goto call phase))
    (husers : base.users = world.users) (hcache : base.cache = world.cache)
    (hclaimLock : base.claimLock = world.claimLock)
    (hphase : base.phase = world.phase) (hfree : phase.locked = false)
    (hcall : CallInv crypto users roster disk workers
      (base.goto call phase) call) :
    Safe crypto users roster disk workers (base.goto call phase) := by
  refine safe.quiet_unlocked hreach ?_ husers hcache hclaimLock ?_ hcall
  · intro other hne
    rw [World.goto_phase_other _ _ _ hne, hphase]
  · rw [World.goto_phase_self]
    exact hfree

end Transfer

section Phases

variable {Tid Digest : Type} [DecidableEq Tid] [DecidableEq Digest]
  {crypto : Crypto Digest} {users : List User} {roster : Tid → Request}
  {disk : Option (List User)} {workers : Nat}
  {world next : World Tid Digest} {call : Tid}

/-- What the server relies on from its cryptographic crates: a fresh hash
verifies its password and is not the sentinel, and the keyed digests of the
submitted credentials do not collide. -/
structure Crypto.Sound (crypto : Crypto Digest) (roster : Tid → Request) :
    Prop where
  verifies : ∀ salt password hash,
    crypto.phc salt password = some hash → crypto.verify hash password = true
  notSentinel : ∀ salt password hash,
    crypto.phc salt password = some hash → hash ≠ initHash
  separates : ∀ first second,
    candidate crypto roster first = candidate crypto roster second →
      cacheMessage (roster first).name (roster first).password =
        cacheMessage (roster second).name (roster second).password

theorem utf8_injective : Function.Injective utf8 := by
  intro first second h
  unfold utf8 at h
  apply String.toByteArray_inj.mp
  exact ByteArray.ext (Array.toList_inj.mp h)

omit [DecidableEq Tid] [DecidableEq Digest] in
theorem Crypto.Sound.same_password (sound : crypto.Sound roster)
    {first second : Tid} (hname : (roster first).name = (roster second).name)
    (hdigest : candidate crypto roster first = candidate crypto roster second) :
    (roster first).password = (roster second).password := by
  have hmessage := sound.separates first second hdigest
  unfold cacheMessage at hmessage
  rw [hname] at hmessage
  have htail := List.append_cancel_left hmessage
  exact utf8_injective (List.cons.inj htail).2

theorem Safe.cache_hit (sound : crypto.Sound roster)
    (safe : Safe crypto users roster disk workers world)
    (hhit : cacheMatches world.cache (roster call).name
      (candidate crypto roster call) = true) :
    ∃ hash, Published users world (roster call).name hash ∧
      crypto.verify hash (roster call).password = true := by
  obtain ⟨owner, hash, hname, hdigest, hpublished, hverify⟩ :=
    safe.cached _ _ (of_decide_eq_true hhit)
  have hpassword := sound.same_password hname hdigest
  exact ⟨hash, hpublished, hpassword ▸ hverify⟩

theorem begin_safe (sound : crypto.Sound roster)
    (safe : Safe crypto users roster disk workers world)
    (hreach : Reaches (step crypto (buildEntries users) roster) world next)
    (hnext : begin crypto (buildEntries users) roster world call = next) :
    Safe crypto users roster disk workers next := by
  unfold begin at hnext
  dsimp only at hnext
  split at hnext
  · subst hnext
    exact safe.moved hreach rfl rfl rfl rfl rfl (by simp [CallInv])
  · split at hnext
    · subst hnext
      exact safe.moved hreach rfl rfl rfl rfl rfl (by simp [CallInv])
    · split at hnext
      · rename_i hhit
        subst hnext
        refine safe.moved hreach rfl rfl rfl rfl rfl ?_
        simpa [CallInv, Published] using safe.cache_hit sound hhit
      · subst hnext
        exact safe.moved hreach rfl rfl rfl rfl rfl (by simp [CallInv])

theorem verifyPrepare_safe (sound : crypto.Sound roster)
    (safe : Safe crypto users roster disk workers world)
    (hreach : Reaches (step crypto (buildEntries users) roster) world next)
    (hnext : verifyPrepare crypto (buildEntries users) roster world call =
      next) :
    Safe crypto users roster disk workers next := by
  unfold verifyPrepare at hnext
  dsimp only at hnext
  split at hnext
  · subst hnext
    exact safe.moved hreach (by simp) (by simp) (by simp) (by simp) rfl
      (by simp [CallInv])
  · rename_i entry hentry
    split at hnext
    · rename_i hhit
      subst hnext
      refine safe.moved hreach (by simp) (by simp) (by simp) (by simp) rfl ?_
      simpa [CallInv, Published] using safe.cache_hit sound hhit
    · subst hnext
      refine safe.moved hreach rfl rfl rfl rfl rfl ?_
      rw [Option.filter_eq_some_iff] at hentry
      simp [CallInv, indexOf, hentry.1]

theorem readHash_safe
    (safe : Safe crypto users roster disk workers world)
    (hreach : Reaches (step crypto (buildEntries users) roster) world next)
    {index : Nat} {hash : String}
    (hphase : world.phase call = .readHash index)
    (hhash : storedHash world.users index = some hash)
    (hnext : world.goto call
      (if hash ≠ initHash then .verifyStored hash else .prepareClaim) = next) :
    Safe crypto users roster disk workers next := by
  subst hnext
  have hindex := safe.calls call
  simp only [CallInv, hphase] at hindex
  split at hreach
  · rename_i hne
    rw [if_pos hne]
    refine safe.moved hreach rfl rfl rfl rfl rfl ?_
    simp only [CallInv, World.goto_phase_self]
    exact ⟨index, hindex, hhash, hne⟩
  · rename_i hne
    rw [if_neg hne]
    exact safe.moved hreach rfl rfl rfl rfl rfl (by simp [CallInv])

theorem prepareClaim_safe (sound : crypto.Sound roster)
    (safe : Safe crypto users roster disk workers world)
    (hreach : Reaches (step crypto (buildEntries users) roster) world next)
    {salt : Option (List UInt8)}
    (hnext : prepareClaim crypto roster world call salt = next) :
    Safe crypto users roster disk workers next := by
  have hreject : Reaches (step crypto (buildEntries users) roster) world
      ((world.dropVerifySlot (roster call).mode).goto call (.done false)) →
      Safe crypto users roster disk workers
        ((world.dropVerifySlot (roster call).mode).goto call (.done false)) :=
    fun hreach => safe.moved hreach (by simp) (by simp) (by simp) (by simp)
      rfl (by simp [CallInv])
  unfold prepareClaim at hnext
  dsimp only at hnext
  split at hnext
  · exact hnext ▸ hreject (hnext ▸ hreach)
  · split at hnext
    · exact hnext ▸ hreject (hnext ▸ hreach)
    · split at hnext
      · exact hnext ▸ hreject (hnext ▸ hreach)
      · rename_i newHash hcomputed
        subst hnext
        refine safe.moved hreach rfl rfl rfl rfl rfl ?_
        simp only [CallInv, World.goto_phase_self]
        unfold Crypto.computeHash at hcomputed
        obtain ⟨bytes, -, hphc⟩ := Option.bind_eq_some_iff.mp hcomputed
        exact ⟨sound.notSentinel _ _ _ hphc, sound.verifies _ _ _ hphc⟩

theorem claimFastPath_safe
    (safe : Safe crypto users roster disk workers world)
    (hreach : Reaches (step crypto (buildEntries users) roster) world next)
    {newHash : String} (hphase : world.phase call = .fastPath newHash)
    (hnext : claimFastPath (buildEntries users) roster world call newHash =
      next) :
    Safe crypto users roster disk workers next := by
  have hfresh := safe.calls call
  simp only [CallInv, hphase] at hfresh
  unfold claimFastPath at hnext
  dsimp only at hnext
  split at hnext
  · subst hnext
    exact safe.moved hreach (by simp) (by simp) (by simp) (by simp) rfl
      (by simp [CallInv])
  · rename_i entry hentry
    have hindex : indexOf users (roster call).name = some entry.index := by
      simp [indexOf, hentry]
    split at hnext
    · rename_i claimedHash hclaimed
      subst hnext
      obtain ⟨hstored, hne⟩ := claimedHashIfAny_some hclaimed
      refine safe.moved hreach rfl rfl rfl rfl rfl ?_
      simp only [CallInv, World.goto_phase_self]
      exact ⟨entry.index, hindex, hstored, hne⟩
    · subst hnext
      refine safe.moved hreach (by simp) (by simp) (by simp) (by simp) ?_ ?_
      · cases (roster call).mode <;> rfl
      · simp only [CallInv, World.goto_phase_self]
        cases (roster call).mode <;> exact ⟨hindex, hfresh⟩

theorem recheckGate_safe
    (safe : Safe crypto users roster disk workers world)
    (hreach : Reaches (step crypto (buildEntries users) roster) world next)
    {work : ClaimWork} (hphase : world.phase call = .recheckGate work)
    (hnext : recheckGate roster world call work = next) :
    Safe crypto users roster disk workers next := by
  have hclaims := safe.calls call
  simp only [CallInv, hphase] at hclaims
  unfold recheckGate at hnext
  split at hnext
  · rename_i claimedHash hclaimed
    subst hnext
    obtain ⟨hstored, hne⟩ := claimedHashIfAny_some hclaimed
    refine safe.moved hreach rfl rfl rfl rfl rfl ?_
    simp only [CallInv, World.goto_phase_self]
    exact ⟨work.index, hclaims.1, hstored, hne⟩
  · subst hnext
    refine safe.moved hreach rfl rfl rfl rfl rfl ?_
    simpa [CallInv] using hclaims

theorem Safe.moved_locked {base : World Tid Digest} {phase : Phase}
    (safe : Safe crypto users roster disk workers world)
    (hreach : Reaches (step crypto (buildEntries users) roster) world
      (base.goto call phase))
    (hheld : (world.phase call).locked = true)
    (husers : base.users = world.users) (hcache : base.cache = world.cache)
    (hclaimLock : base.claimLock = world.claimLock)
    (hphase : base.phase = world.phase)
    (hcall : CallInv crypto users roster disk workers
      (base.goto call phase) call) :
    Safe crypto users roster disk workers (base.goto call phase) := by
  refine safe.quiet hreach ?_ husers hcache ?_ ?_ hcall
  · intro other hne
    rw [World.goto_phase_other _ _ _ hne, hphase]
  · intro other _ hother
    rw [World.goto_claimLock, hclaimLock]
    exact hother
  · intro _
    rw [World.goto_claimLock, hclaimLock]
    exact safe.locked call hheld

theorem Safe.left {base : World Tid Digest} {phase : Phase}
    (safe : Safe crypto users roster disk workers world)
    (hreach : Reaches (step crypto (buildEntries users) roster) world
      ((base.leaveCommit (roster call)).goto call phase))
    (hheld : (world.phase call).locked = true)
    (hnames : base.users.map User.name = world.users.map User.name)
    (hkeeps : ∀ index kept, kept ≠ initHash →
      storedHash world.users index = some kept →
        storedHash base.users index = some kept)
    (hphase : base.phase = world.phase) (hfree : phase.locked = false)
    (hcached : CacheInv crypto users roster base)
    (horigin : ∀ name index hash, indexOf users name = some index →
      storedHash users index = some initHash →
      storedHash base.users index = some hash → hash ≠ initHash →
      OnDisk crypto users roster disk workers
        ((base.leaveCommit (roster call)).goto call phase) name hash)
    (hcall : CallInv crypto users roster disk workers
      ((base.leaveCommit (roster call)).goto call phase) call) :
    Safe crypto users roster disk workers
      ((base.leaveCommit (roster call)).goto call phase) := by
  have hmine := safe.locked call hheld
  refine safe.transfer call hreach ?_ (by simpa using hnames) ?_ (.inl hmine) ?_ ?_
    ?_ ?_ hcall
  · intro other hne
    rw [World.goto_phase_other _ _ _ hne, World.leaveCommit_phase, hphase]
  · simpa using hkeeps
  · intro other hne hother
    rw [hmine] at hother
    exact absurd (Option.some.inj hother).symm hne
  · intro hlocked
    rw [World.goto_phase_self, hfree] at hlocked
    exact absurd hlocked (by decide)
  · exact hcached.keep (by simp) (by simp)
  · simpa using horigin

theorem claimLock_safe
    (safe : Safe crypto users roster disk workers world)
    (hreach : Reaches (step crypto (buildEntries users) roster) world next)
    {work : ClaimWork} (hphase : world.phase call = .waitClaimLock work)
    (hfree : world.claimLock = none)
    (hnext : { world with claimLock := some call }.goto call
      (.recheckLocked work) = next) :
    Safe crypto users roster disk workers next := by
  have hclaims := safe.calls call
  simp only [CallInv, hphase] at hclaims
  subst hnext
  refine safe.quiet hreach ?_ rfl rfl ?_ (fun _ => rfl) ?_
  · intro other hne
    exact World.goto_phase_other _ _ _ hne
  · intro other _ hother
    rw [hfree] at hother
    exact absurd hother (by simp)
  · simpa [CallInv] using hclaims

theorem recheckLocked_safe
    (safe : Safe crypto users roster disk workers world)
    (hreach : Reaches (step crypto (buildEntries users) roster) world next)
    {work : ClaimWork} (hphase : world.phase call = .recheckLocked work)
    {hash : String} (hpresent : storedHash world.users work.index = some hash)
    (hnext : recheckLocked roster world call work = next) :
    Safe crypto users roster disk workers next := by
  have hclaims := safe.calls call
  simp only [CallInv, hphase] at hclaims
  have hheld : (world.phase call).locked = true := by rw [hphase]; rfl
  unfold recheckLocked at hnext
  split at hnext
  · rename_i claimedHash hclaimed
    subst hnext
    obtain ⟨hstored, hne⟩ := claimedHashIfAny_some hclaimed
    refine safe.left hreach hheld rfl (fun _ _ _ h => h) rfl
      (afterCommit_locked _ _) safe.cached ?_ ?_
    · intro name index kept hindex hinit hkept hreal
      exact safe.origin_later hreach hindex hinit hkept hreal
    · have hpublished : Published users world (roster call).name claimedHash :=
        ⟨work.index, hclaims.1, hstored, hne⟩
      simp only [CallInv, World.goto_phase_self, World.afterCommit]
      cases (roster call).mode <;> simpa [Published] using hpublished
  · rename_i hclaimed
    subst hnext
    refine safe.moved_locked hreach hheld rfl rfl rfl rfl ?_
    simp only [CallInv, World.goto_phase_self]
    have heq := claimedHashIfAny_none hclaimed hpresent
    exact ⟨hclaims, by simp [Unclaimed, hpresent, heq]⟩

theorem claimFallback_safe
    (safe : Safe crypto users roster disk workers world)
    (hreach : Reaches (step crypto (buildEntries users) roster) world next)
    {work : ClaimWork} (hphase : world.phase call = .fallback work)
    (hnext : claimFallback world call work = next) :
    Safe crypto users roster disk workers next := by
  have hknown := safe.calls call
  simp only [CallInv, hphase] at hknown
  obtain ⟨hclaims, hunclaimed⟩ := hknown
  subst hnext
  refine safe.moved_locked hreach (by rw [hphase]; rfl) rfl rfl rfl rfl ?_
  simp only [CallInv, World.goto_phase_self]
  refine ⟨hclaims, hunclaimed, ?_⟩
  intro snapshot hsnapshot
  cases hdisk : world.disk with
  | some content => simp [hdisk] at hsnapshot
  | none =>
      have heq : publishHash world.users work.index work.newHash = snapshot := by
        simpa [hdisk] using hsnapshot
      subst heq
      have hnames := (names_publishHash world.users work.index
        work.newHash).trans safe.names
      have hindex := (indexOf_congr hnames (roster call).name).trans hclaims.1
      rw [findUser_of_indexOf hindex]
      exact storedHash_publishHash_self hunclaimed work.newHash

theorem claimPersist_safe
    (safe : Safe crypto users roster disk workers world)
    (hreach : Reaches (step crypto (buildEntries users) roster) world next)
    {work : ClaimWork} {fallbackUsers : Option (List User)} {io : PersistIo}
    (hphase : world.phase call = .persist work fallbackUsers)
    (hnext : claimPersist roster world call work fallbackUsers io = next) :
    Safe crypto users roster disk workers next := by
  have hknown := safe.calls call
  simp only [CallInv, hphase] at hknown
  obtain ⟨hclaims, hunclaimed, hfallback⟩ := hknown
  subst hnext
  have hnow : ReachableWorld crypto users roster disk workers _ :=
    safe.reachable.trans hreach
  refine safe.moved_locked hreach (by rw [hphase]; rfl) rfl rfl rfl rfl ?_
  simp only [CallInv, World.goto_phase_self]
  refine ⟨hclaims, hunclaimed, ?_⟩
  cases hresult : persistClaim io world.disk (roster call).name work.newHash
      fallbackUsers with
  | mk outcome after =>
      simp only [claimPersist, hresult] at hnow ⊢
      cases outcome with
      | written =>
          have hdisk := persistClaim_written hfallback hresult
          exact ⟨_, call, work, .written, hnow, .refl _ _, rfl, by simp, rfl,
            hdisk⟩
      | diskHashChanged hash =>
          obtain ⟨hne, rfl, hdisk⟩ := persistClaim_diskHashChanged hresult
          exact ⟨hne, _, call, work, .diskHashChanged hash, hnow, .refl _ _,
            rfl, by simp, rfl, hdisk⟩
      | failed reason => trivial

theorem Safe.origin_published
    (safe : Safe crypto users roster disk workers world)
    (hreach : Reaches (step crypto (buildEntries users) roster) world next)
    {index : Nat} {name hash : String}
    (hindex : indexOf users name = some index)
    (hinit : storedHash world.users index = some initHash)
    (hseen : OnDisk crypto users roster disk workers world name hash)
    {other : String} {position : Nat} {kept : String}
    (hposition : indexOf users other = some position)
    (hstart : storedHash users position = some initHash)
    (hkept : storedHash (publishHash world.users index hash) position =
      some kept)
    (hreal : kept ≠ initHash) :
    OnDisk crypto users roster disk workers next other kept := by
  by_cases heq : position = index
  · subst heq
    have hname : other = name := indexOf_injective hposition hindex
    subst hname
    rw [storedHash_publishHash_self hinit] at hkept
    obtain rfl := Option.some.inj hkept
    exact hseen.later hreach
  · rw [storedHash_publishHash_other heq] at hkept
    exact safe.origin_later hreach hposition hstart hkept hreal

theorem claimPublish_safe
    (safe : Safe crypto users roster disk workers world)
    (hreach : Reaches (step crypto (buildEntries users) roster) world next)
    {work : ClaimWork} {outcome : ClaimPersist}
    (hphase : world.phase call = .publish work outcome)
    (hnext : claimPublish roster world call work outcome = next) :
    Safe crypto users roster disk workers next := by
  have hknown := safe.calls call
  simp only [CallInv, hphase] at hknown
  obtain ⟨hclaims, hunclaimed, hseen⟩ := hknown
  have hheld : (world.phase call).locked = true := by rw [hphase]; rfl
  have hmine := safe.locked call hheld
  cases outcome with
  | written =>
      subst hnext
      refine safe.transfer call hreach ?_ (names_publishHash _ _ _)
        (fun index kept hkept h => publishHash_keeps hunclaimed _ hkept h)
        (.inl hmine) (fun other _ h => h) (fun _ => hmine) ?_ ?_ ?_
      · intro other hne
        exact World.goto_phase_other _ _ _ hne
      · exact safe.cached.keep
          (fun index kept hkept h => publishHash_keeps hunclaimed _ hkept h) rfl
      · intro name index hash hindex hstart hstored hreal
        exact safe.origin_published hreach hclaims.1 hunclaimed hseen hindex
          hstart hstored hreal
      · simp only [CallInv, claimPublish, World.goto_phase_self]
        exact ⟨hclaims, storedHash_publishHash_self hunclaimed _⟩
  | diskHashChanged diskHash =>
      subst hnext
      refine safe.left hreach hheld (names_publishHash _ _ _)
        (fun index kept hkept h => publishHash_keeps hunclaimed _ hkept h)
        rfl (afterCommit_locked _ _) ?_ ?_ ?_
      · exact safe.cached.keep
          (fun index kept hkept h => publishHash_keeps hunclaimed _ hkept h) rfl
      · intro name index hash hindex hstart hstored hreal
        exact safe.origin_published hreach hclaims.1 hunclaimed hseen.2 hindex
          hstart hstored hreal
      · have hpublished : Published users { world with
            users := publishHash world.users work.index diskHash }
            (roster call).name diskHash :=
          ⟨work.index, hclaims.1, storedHash_publishHash_self hunclaimed _,
            hseen.1⟩
        simp only [CallInv, World.goto_phase_self, World.afterCommit]
        cases (roster call).mode <;> simpa [Published] using hpublished
  | failed reason =>
      subst hnext
      refine safe.left hreach hheld (names_publishHash _ _ _)
        (fun index kept hkept h => publishHash_keeps hunclaimed _ hkept h)
        rfl rfl ?_ ?_ (by simp [CallInv])
      · exact safe.cached.keep
          (fun index kept hkept h => publishHash_keeps hunclaimed _ hkept h) rfl
      · intro name index hash hindex hstart hstored hreal
        have hsame : storedHash world.users index = some hash := by
          by_cases heq : index = work.index
          · subst heq
            rw [storedHash_publishHash_self hunclaimed] at hstored
            exact absurd (Option.some.inj hstored).symm hreal
          · rwa [storedHash_publishHash_other heq] at hstored
        exact safe.origin_later hreach hindex hstart hsame hreal

omit [DecidableEq Tid] [DecidableEq Digest] in
theorem CacheInv.insert
    (hcached : CacheInv crypto users roster world) {hash : String}
    (hpublished : Published users world (roster call).name hash)
    (hverify : crypto.verify hash (roster call).password = true)
    (husers : next.users = world.users)
    (hcache : next.cache = Function.update world.cache (roster call).name
      (some (candidate crypto roster call))) :
    CacheInv crypto users roster next := by
  have hkeeps : ∀ index kept, kept ≠ initHash →
      storedHash world.users index = some kept →
        storedHash next.users index = some kept := by
    intro index kept _ h
    rw [husers]
    exact h
  intro name digest hentry
  rw [hcache] at hentry
  by_cases heq : name = (roster call).name
  · subst heq
    rw [Function.update_self] at hentry
    exact ⟨call, hash, rfl, Option.some.inj hentry, hpublished.keep hkeeps,
      hverify⟩
  · rw [Function.update_of_ne heq] at hentry
    obtain ⟨owner, other, hname, hdigest, hother, hgood⟩ :=
      hcached name digest hentry
    exact ⟨owner, other, hname, hdigest, hother.keep hkeeps, hgood⟩

theorem cacheClaim_safe
    (safe : Safe crypto users roster disk workers world)
    (hreach : Reaches (step crypto (buildEntries users) roster) world next)
    {work : ClaimWork} (hphase : world.phase call = .cacheClaim work)
    (hnext : cacheClaim crypto roster world call = next) :
    Safe crypto users roster disk workers next := by
  have hknown := safe.calls call
  simp only [CallInv, hphase] at hknown
  obtain ⟨⟨hindex, hreal, hverify⟩, hstored⟩ := hknown
  have hpublished : Published users world (roster call).name work.newHash :=
    ⟨work.index, hindex, hstored, hreal⟩
  subst hnext
  refine safe.left hreach (by rw [hphase]; rfl) rfl (fun _ _ _ h => h) rfl rfl
    ?_ ?_ ?_
  · exact safe.cached.insert hpublished hverify rfl rfl
  · intro name index hash hposition hstart hkept hne
    exact safe.origin_later hreach hposition hstart hkept hne
  · simp only [CallInv, World.goto_phase_self]
    exact ⟨work.newHash, by simpa [Published] using hpublished, hverify⟩

theorem verifyAgainstCommitted_safe
    (safe : Safe crypto users roster disk workers world)
    (hreach : Reaches (step crypto (buildEntries users) roster) world next)
    {hash : String} (hphase : world.phase call = .verifyStored hash)
    (hnext : verifyAgainstCommitted crypto roster world call hash = next) :
    Safe crypto users roster disk workers next := by
  have hpublished := safe.calls call
  simp only [CallInv, hphase] at hpublished
  unfold verifyAgainstCommitted at hnext
  dsimp only at hnext
  split at hnext
  · rename_i hverify
    subst hnext
    have hsame : ∀ index kept, kept ≠ initHash →
        storedHash world.users index = some kept →
          storedHash (world.dropVerifySlot (roster call).mode).users index =
            some kept := by simp
    refine safe.transfer call hreach ?_ (by simp) (by simp) (.inr (by simp)) ?_ ?_
      ?_ ?_ ?_
    · intro other hne
      rw [World.goto_phase_other _ _ _ hne]
      simp
    · intro other _ h
      simpa using h
    · intro hlocked
      rw [World.goto_phase_self] at hlocked
      exact absurd hlocked (by decide)
    · exact safe.cached.insert hpublished hverify (by simp) (by simp)
    · intro name index kept hposition hstart hkept hne
      exact safe.origin_later hreach hposition hstart (by simpa using hkept) hne
    · simp only [CallInv, World.goto_phase_self]
      exact ⟨hash, by simpa [Published] using hpublished, hverify⟩
  · subst hnext
    exact safe.moved hreach (by simp) (by simp) (by simp) (by simp) rfl
      (by simp [CallInv])

end Phases

end Resocks5.Auth
