import Resocks5.Users.NoLostUpdate

namespace Resocks5.Users

open Resocks5.Auth
open Resocks5.Foundation

/-! The users file as one small machine for each account. -/

def UserOp.name : UserOp → String
  | .add user | .addInit user => user.name
  | .setPassword name _ | .remove name | .setEnabled name _ | .setDirect name _ => name

def Job.about (name : String) : Job → Bool
  | .initialise => false
  | .commit op => op.name = name
  | .claim claimed _ _ => claimed = name

def Job.apply (users : List User) : Job → Option (List User)
  | .initialise => none
  | .commit op => (applyOp op users).toOption
  | .claim name newHash _ =>
    (findUser name users).bind fun user =>
      if user.hash = initHash then some (setHash name newHash users) else none

/-- What a job makes of the account that it is about: only what is not there is added, only what
is there is changed, and only an unclaimed account is claimed. -/
def accountStep (account : Option User) : Job → Option (Option User)
  | .initialise => none
  | .commit (.add user) | .commit (.addInit user) =>
    if account.isSome then none else some (some user)
  | .commit (.setPassword _ hash) => account.map fun user => some { user with hash }
  | .commit (.remove _) => account.map fun _ => none
  | .commit (.setEnabled _ enabled) =>
    account.map fun user => some { user with isEnabled := enabled }
  | .commit (.setDirect _ direct) => account.map fun user => some { user with direct }
  | .claim _ newHash _ =>
    account.bind fun user =>
      if user.hash = initHash then some (some { user with hash := newHash }) else none

/-! One change, seen from every account. -/

/-- `name` goes from `before` to `behind`, and nobody else moves. -/
structure Changes (name : String) (users after : List User) (before behind : Option User) :
    Prop where
  was : findUser name users = before
  now : findUser name after = behind
  others : ∀ other, other ≠ name → findUser other after = findUser other users

theorem findUser_cons_self {user : User} {users : List User} :
    findUser user.name (user :: users) = some user := by
  simp [findUser]

theorem findUser_cons_of_ne {name : String} {user : User} {users : List User}
    (hname : user.name ≠ name) : findUser name (user :: users) = findUser name users := by
  simp [findUser, hname]

theorem modifyUser_changes {name : String} {f : User → User}
    (hname : ∀ user, (f user).name = user.name) {users after : List User}
    (hmodify : modifyUser name f users = .ok after) :
    ∃ user, Changes name users after (some user) (some (f user)) := by
  induction users generalizing after with
  | nil => cases hmodify
  | cons head users ih =>
      rw [modifyUser] at hmodify
      split at hmodify
      · rename_i hhead
        subst hhead
        cases hmodify
        refine ⟨head, findUser_cons_self, ?_, fun other hother => ?_⟩
        · rw [← hname head, findUser_cons_self]
        · have hne : (f head).name ≠ other := fun heq => hother (heq ▸ hname head)
          rw [findUser_cons_of_ne hne, findUser_cons_of_ne (Ne.symm hother)]
      · rename_i hhead
        cases hrest : modifyUser name f users with
        | error message =>
            rw [hrest] at hmodify
            cases hmodify
        | ok rest =>
            rw [hrest] at hmodify
            cases hmodify
            obtain ⟨user, hwas, hnow, hothers⟩ := ih hrest
            refine ⟨user, ?_, ?_, fun other hother => ?_⟩
            · rw [findUser_cons_of_ne hhead, hwas]
            · rw [findUser_cons_of_ne hhead, hnow]
            · by_cases hsame : head.name = other
              · subst hsame
                rw [findUser_cons_self, findUser_cons_self]
              · rw [findUser_cons_of_ne hsame, findUser_cons_of_ne hsame, hothers other hother]

theorem modifyUser_setHash {name : String} (hash : String) {users : List User} {user : User}
    (hfind : findUser name users = some user) :
    modifyUser name ({ · with hash }) users = .ok (setHash name hash users) := by
  induction users with
  | nil => cases hfind
  | cons head users ih =>
      rw [modifyUser, setHash]
      split
      · rfl
      · rename_i hhead
        rw [findUser_cons_of_ne hhead] at hfind
        rw [ih hfind]
        rfl

theorem pushUser_changes {user : User} {users after : List User}
    (hpush : pushUser user users = .ok after) :
    Changes user.name users after none (some user) := by
  rw [pushUser] at hpush
  split at hpush
  · cases hpush
  · rename_i hnew
    cases hpush
    have hnone : findUser user.name users = none := by
      simpa [findUser] using hnew
    refine ⟨hnone, ?_, fun other hother => ?_⟩
    · rw [findUser, List.find?_append, ← findUser, hnone, Option.none_or]
      simp
    · rw [findUser, List.find?_append, ← findUser]
      simp [Ne.symm hother]

theorem removeUser_changes {name : String} {users after : List User} (hdistinct : Distinct users)
    (hremove : removeUser name users = .ok after) :
    ∃ user, Changes name users after (some user) none := by
  rw [removeUser] at hremove
  cases hindex : users.findIdx? (·.name = name) with
  | none =>
      rw [hindex] at hremove
      cases hremove
  | some pos =>
      rw [hindex] at hremove
      cases hremove
      have herased : users.eraseP (·.name = name) = users.eraseIdx pos := by
        rw [List.eraseP_eq_eraseIdx, hindex]
      obtain ⟨found, hfound, hfoundName⟩ : ∃ found ∈ users, found.name = name := by
        obtain ⟨hlt, hname, -⟩ := List.findIdx?_eq_some_iff_getElem.mp hindex
        exact ⟨_, List.getElem_mem hlt, of_decide_eq_true hname⟩
      obtain ⟨user, front, rest, hfront, hname, husers, hafter⟩ :=
        List.exists_of_eraseP hfound (p := (·.name = name)) (decide_eq_true hfoundName)
      have hname : user.name = name := of_decide_eq_true hname
      have hnobody : findUser name front = none := by
        simpa [findUser] using hfront
      rw [← herased, hafter]
      subst hname husers
      rw [Distinct, List.map_append, List.map_cons, List.nodup_append, List.nodup_cons] at hdistinct
      refine ⟨user, ?_, ?_, fun other hother => ?_⟩
      · rw [findUser, List.find?_append, ← findUser, hnobody]
        exact findUser_cons_self
      · rw [findUser, List.find?_append, ← findUser, hnobody, Option.none_or]
        refine List.find?_eq_none.mpr fun later hlater hsame => hdistinct.2.1.1 ?_
        exact List.mem_map.mpr ⟨later, hlater, of_decide_eq_true hsame⟩
      · rw [findUser, findUser, List.find?_append, List.find?_append]
        congr 1
        exact (findUser_cons_of_ne (Ne.symm hother)).symm

/-- A list of accounts with names of their own is a machine for each of them. -/
theorem apply_account {job : Job} {users after : List User} (hdistinct : Distinct users)
    (happly : job.apply users = some after) :
    Distinct after ∧ ∀ name,
      if job.about name then accountStep (findUser name users) job = some (findUser name after)
      else findUser name after = findUser name users := by
  have hviews {changed : String} {before behind : Option User}
      (hchanges : Changes changed users after before behind)
      (habout : ∀ name, job.about name = decide (changed = name))
      (hstep : accountStep before job = some behind) (name : String) :
      if job.about name then accountStep (findUser name users) job = some (findUser name after)
      else findUser name after = findUser name users := by
    rw [habout]
    split
    · rename_i hsame
      rw [← of_decide_eq_true hsame, hchanges.was, hchanges.now]
      exact hstep
    · rename_i hother
      exact hchanges.others name fun hsame => hother (decide_eq_true hsame.symm)
  cases job with
  | initialise => cases happly
  | claim name newHash fallbackUsers =>
      obtain ⟨user, hfind, hclaim⟩ := Option.bind_eq_some_iff.mp happly
      split at hclaim
      · rename_i hinit
        obtain rfl := Option.some.inj hclaim
        obtain ⟨found, hchanges⟩ :=
          modifyUser_changes (f := ({ · with hash := newHash })) (fun _ => rfl)
            (modifyUser_setHash newHash hfind)
        obtain rfl := Option.some.inj (hfind.symm.trans hchanges.was)
        refine ⟨setHash_distinct hfind hdistinct, hviews hchanges (fun _ => rfl) ?_⟩
        simp [accountStep, hinit]
      · cases hclaim
  | commit op =>
      have hop : applyOp op users = .ok after := by
        rw [Job.apply] at happly
        cases hresult : applyOp op users with
        | error message =>
            rw [hresult] at happly
            cases happly
        | ok changed =>
            rw [hresult] at happly
            obtain rfl := Option.some.inj happly
            rfl
      refine ⟨applyOp_distinct hdistinct hop, ?_⟩
      cases op with
      | add user => exact hviews (pushUser_changes hop) (fun _ => rfl) rfl
      | addInit user => exact hviews (pushUser_changes hop) (fun _ => rfl) rfl
      | setPassword name hash =>
          obtain ⟨user, hchanges⟩ :=
            modifyUser_changes (f := ({ · with hash })) (fun _ => rfl) hop
          exact hviews hchanges (fun _ => rfl) rfl
      | remove name =>
          obtain ⟨user, hchanges⟩ := removeUser_changes hdistinct hop
          exact hviews hchanges (fun _ => rfl) rfl
      | setEnabled name enabled =>
          obtain ⟨user, hchanges⟩ :=
            modifyUser_changes (f := ({ · with isEnabled := enabled })) (fun _ => rfl) hop
          exact hviews hchanges (fun _ => rfl) rfl
      | setDirect name direct =>
          obtain ⟨user, hchanges⟩ :=
            modifyUser_changes (f := ({ · with direct })) (fun _ => rfl) hop
          exact hviews hchanges (fun _ => rfl) rfl

/-! The file is what the jobs that landed make of it. -/

section

variable {Pid Server : Type} [DecidableEq Pid] [DecidableEq Server] {ktav : Ktav}
  {roster : Pid → Work Server} {ledger after : Ledger Pid Server} {world next : World Pid Server}
  {pid : Pid}

omit [DecidableEq Pid] [DecidableEq Server] in
theorem decide_apply (hktav : ktav.Faithful) {job : Job} {text written : Bytes}
    {users : List User} (hread : ktav.fromText text = some users)
    (hdecide : job.decide ktav (some text) = .ok written) :
    ∃ after, ktav.fromText written = some after ∧ job.apply users = some after := by
  have hwrites {after : List User} (hwritable : writable ktav after = .ok written) :
      ktav.fromText written = some after := by
    rw [writable] at hwritable
    split at hwritable
    · cases hwritable
    · rename_i hwritten
      cases hwritable
      exact hktav _ _ hwritten
  cases job with
  | initialise => cases hdecide
  | commit op =>
      rw [Job.decide, hread] at hdecide
      dsimp only at hdecide
      split at hdecide
      · cases hdecide
      · rename_i after hop
        exact ⟨after, hwrites hdecide, by rw [Job.apply, hop]; rfl⟩
  | claim name newHash fallbackUsers =>
      rw [decide_claim, hread] at hdecide
      dsimp only at hdecide
      split at hdecide
      · cases hdecide
      · rename_i user hfind
        split at hdecide
        · cases hdecide
        · rename_i hinit
          refine ⟨_, hwrites hdecide, ?_⟩
          rw [Job.apply, hfind, Option.bind_some, if_pos (not_not.mp hinit)]

omit [DecidableEq Pid] in
theorem publish_target (work : Work Server) (report : Report) :
    (world.publish work report).target = world.target := by
  unfold World.publish
  cases work <;> rfl

/-- Nothing but a rename touches the file. -/
theorem advance_target {ok : Bool}
    (hstep : ledger.world.advance ktav roster pid ok = some next) :
    ledger.world.lands (.advance pid ok) = none ∧ next.target = ledger.world.target ∨
      ∃ job text, ledger.world.phase pid = .flushed job text ∧
        ledger.world.lands (.advance pid ok) = some ⟨pid, job⟩ ∧
        next.target = ledger.world.tmp := by
  have hquiet (hphase : ∀ job text, ledger.world.phase pid ≠ .flushed job text)
      (htarget : next.target = ledger.world.target) :
      ledger.world.lands (.advance pid ok) = none ∧ next.target = ledger.world.target :=
    ⟨lands_none hphase, htarget⟩
  unfold World.advance at hstep
  cases hphase : ledger.world.phase pid with
  | flushed job text =>
      simp only [hphase] at hstep
      cases ok with
      | true =>
          obtain rfl := Option.some.inj hstep
          exact .inr ⟨job, text, rfl, by simp [World.lands, hphase], rfl⟩
      | false =>
          obtain rfl := Option.some.inj hstep
          exact .inl ⟨rfl, rfl⟩
  | start =>
      refine .inl (hquiet (by simp [hphase]) ?_)
      simp only [hphase] at hstep
      split at hstep
      · obtain ⟨phase, -, rfl⟩ := Option.map_eq_some_iff.mp hstep
        rfl
      · obtain rfl := Option.some.inj hstep
        rfl
  | waiting job =>
      refine .inl (hquiet (by simp [hphase]) ?_)
      simp only [hphase] at hstep
      split at hstep
      · obtain rfl := Option.some.inj hstep
        rfl
      · split at hstep
        · cases hstep
        · obtain rfl := Option.some.inj hstep
          rfl
  | locked job =>
      refine .inl (hquiet (by simp [hphase]) ?_)
      simp only [hphase] at hstep
      split at hstep
      · obtain rfl := Option.some.inj hstep
        rfl
      · split at hstep
        · obtain rfl := Option.some.inj hstep
          rfl
        · obtain rfl := Option.some.inj hstep
          rfl
  | creating job text | writing job text =>
      refine .inl (hquiet (by simp [hphase]) ?_)
      simp only [hphase] at hstep
      split at hstep
      · obtain rfl := Option.some.inj hstep
        rfl
      · obtain rfl := Option.some.inj hstep
        rfl
  | discarding reason | renamed | leaving report =>
      refine .inl (hquiet (by simp [hphase]) ?_)
      simp only [hphase] at hstep
      obtain rfl := Option.some.inj hstep
      rfl
  | publishing report =>
      refine .inl (hquiet (by simp [hphase]) ?_)
      simp only [hphase] at hstep
      obtain rfl := Option.some.inj hstep
      exact publish_target _ _
  | done report | dead =>
      simp only [hphase] at hstep
      cases hstep

def Ledger.jobs (ledger : Ledger Pid Server) : List Job := ledger.landed.map (·.job)

/-- The file holds what they made of the users. -/
def Made (ktav : Ktav) (users : List User) (ledger : Ledger Pid Server) : Prop :=
  ∃ current, ledger.world.target.bind ktav.fromText = some current ∧
    run Job.apply users ledger.jobs = some current

theorem step_made (hktav : ktav.Faithful) {target : Option Bytes} {users : List User}
    (hserial : Serial ktav roster target ledger) (hmade : Made ktav users ledger)
    {event : Event Pid Server} (hstep : ledger.step ktav roster event = some after) :
    Made ktav users after := by
  obtain ⟨next, hnext, rfl⟩ := Option.map_eq_some_iff.mp hstep
  obtain ⟨current, hread, hrun⟩ := hmade
  have hkept (hlands : ledger.world.lands event = none)
      (htarget : next.target = ledger.world.target) :
      Made ktav users ⟨next, ledger.locked ++ (ledger.world.locks event).toList,
        ledger.landed ++ (ledger.world.lands event).toList⟩ := by
    refine ⟨current, htarget ▸ hread, ?_⟩
    rw [hlands, Option.toList_none, List.append_nil]
    exact hrun
  cases event with
  | boot server =>
      rw [World.step] at hnext
      split at hnext
      · cases hnext
      · obtain ⟨loaded, -, rfl⟩ := Option.map_eq_some_iff.mp hnext
        exact hkept rfl rfl
  | wrote pid n =>
      rw [World.step] at hnext
      split at hnext <;> cases hnext
      exact hkept rfl rfl
  | crash pid =>
      cases hnext
      exact hkept rfl rfl
  | advance pid ok =>
      obtain ⟨hlands, htarget⟩ | ⟨job, text, hphase, hlands, htarget⟩ := advance_target hnext
      · exact hkept hlands htarget
      · have hstands := hserial.stands pid
        rw [hphase] at hstands
        obtain ⟨-, -, hdecide, htmp⟩ := hstands
        obtain ⟨found, hfound, hreads⟩ := Option.bind_eq_some_iff.mp hread
        rw [hfound] at hdecide
        obtain ⟨made, hwritten, happly⟩ := decide_apply hktav hreads hdecide
        refine ⟨made, ?_, ?_⟩
        · dsimp only
          rw [htarget, htmp]
          exact hwritten
        · rw [Ledger.jobs, hlands, Option.toList_some, List.map_append, run_append, ← Ledger.jobs,
            hrun, Option.bind_some, List.map_singleton, run_cons, happly]
          rfl

omit [DecidableEq Pid] [DecidableEq Server] in
theorem fresh_serial (target tmp : Option Bytes) :
    Serial ktav roster target (⟨World.fresh target tmp, [], []⟩ : Ledger Pid Server) where
  serial := rfl
  ordered := List.Sublist.refl _
  once := List.nodup_nil
  jobs := fun _ htxn => by cases htxn
  waiting := fun _ _ hwaiting => by cases hwaiting
  stands := fun _ => ⟨(fun hholder => by cases hholder), List.not_mem_nil⟩

/-- Whatever runs, in whatever order, and wherever it fails or is killed: the file is what the jobs
that landed make of the users it had, and each account has gone through those about it and no
others. -/
theorem account_histories (hktav : ktav.Faithful) {text : Bytes} {users : List User}
    (hread : ktav.fromText text = some users) (hdistinct : Distinct users) (tmp : Option Bytes)
    {events : List (Event Pid Server)} {ledger : Ledger Pid Server}
    (hrun : run (Ledger.step ktav roster) ⟨World.fresh (some text) tmp, [], []⟩ events =
      some ledger) :
    ∃ current, ledger.world.target.bind ktav.fromText = some current ∧
      run Job.apply users ledger.jobs = some current ∧ Distinct current ∧
      ∀ name, run accountStep (findUser name users) (ledger.jobs.filter (Job.about name)) =
        some (findUser name current) := by
  have hboth := run_preserves
    (fun _ _ _ hstep (hbefore : Serial ktav roster (some text) _ ∧ Made ktav users _) =>
      ⟨step_serial hbefore.1 hstep, step_made hktav hbefore.1 hbefore.2 hstep⟩)
    hrun ⟨fresh_serial _ _, users, hread, rfl⟩
  obtain ⟨current, hcurrent, hmade⟩ := hboth.2
  have hkeeps (before : List User) (job : Job) (after : List User)
      (happly : job.apply before = some after) (hbefore : Distinct before) : Distinct after :=
    (apply_account hbefore happly).1
  refine ⟨current, hcurrent, hmade, run_preserves hkeeps hmade hdistinct, fun name => ?_⟩
  have hpart (before : List User) (job : Job) (after : List User) (hbefore : Distinct before)
      (happly : job.apply before = some after) :
      if job.about name then accountStep (findUser name before) job = some (findUser name after)
      else findUser name after = findUser name before :=
    (apply_account hbefore happly).2 name
  exact run_projects hkeeps hpart hmade hdistinct

end

/-- Bob is added while alice claims her account, and her account is claimed once. -/
theorem account_histories_claim :
    ∃ ledger, run (Ledger.step sampleKtav sampleRoster)
        ⟨World.fresh (some (sampleText (sampleUsers.getD 0 []))) none, [], []⟩ sampleEvents =
          some ledger ∧
      ledger.jobs.map (Job.about "alice") = [false, true] ∧
      ∃ current, Distinct current ∧
        run accountStep (findUser "alice" (sampleUsers.getD 0 []))
          (ledger.jobs.filter (Job.about "alice")) = some (findUser "alice" current) := by
  have hends : (run (Ledger.step sampleKtav sampleRoster)
      ⟨World.fresh (some (sampleText (sampleUsers.getD 0 []))) none, [], []⟩ sampleEvents).map
        (·.jobs.map (Job.about "alice")) = some [false, true] := by
    decide +kernel
  obtain ⟨ledger, hrun, hjobs⟩ := Option.map_eq_some_iff.mp hends
  have hread : sampleKtav.fromText (sampleText (sampleUsers.getD 0 [])) =
      some (sampleUsers.getD 0 []) := by decide +kernel
  have hdistinct : Distinct (sampleUsers.getD 0 []) := List.pairwise_singleton _ _
  obtain ⟨current, -, -, hkept, hhistory⟩ :=
    account_histories sampleKtav_faithful hread hdistinct none hrun
  exact ⟨ledger, hrun, hjobs, current, hkept, hhistory "alice"⟩

end Resocks5.Users
