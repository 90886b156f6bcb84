import Resocks5.Server.Health
import Resocks5.Rating.Selection

namespace Resocks5.Server

open Resocks5.Foundation
open Resocks5.Rating
open Resocks5.Session
open Resocks5.Types

/-! A tripped cell keeps what a restore would raise its counters to. -/

structure Tripped (policy : QuarantinePolicy) (cell : Cell) : Prop where
  enabled : policy.enabled = true
  trips : 1 ≤ cell.trips
  consecutive : policy.threshold ≤ cell.consecutive

def Sound (policy : QuarantinePolicy) (cell : Cell) : Prop :=
  cell.untilAt ≠ none → Tripped policy cell

theorem hardFailure_sound {policy : QuarantinePolicy} (henabled : policy.enabled = true)
    {cell : Cell} (hsound : Sound policy cell) (now : Instant) :
    Sound policy (cell.hardFailure now policy).2 := by
  unfold Cell.hardFailure
  split
  · exact hsound
  · dsimp only
    split
    · intro htripped
      obtain ⟨_, htrips, hconsecutive⟩ := hsound htripped
      exact ⟨henabled, htrips, saturatingSucc_le policy.bounded hconsecutive⟩
    · rename_i hreached
      exact fun _ => ⟨henabled, saturatingSucc_one _, not_lt.mp hreached⟩

theorem tryLease_sound {policy : QuarantinePolicy} {cell : Cell} (hsound : Sound policy cell)
    (now : Instant) : Sound policy (cell.tryLease now policy).2 := by
  unfold Cell.tryLease
  split
  · exact hsound
  · split
    · exact hsound
    · intro htripped
      obtain ⟨henabled, htrips, hconsecutive⟩ := hsound htripped
      exact ⟨henabled, htrips, hconsecutive⟩

theorem onCell_sound {policy : QuarantinePolicy} {i : Nat} {cell : Cell}
    (hsound : Sound policy cell) (op : Op) : Sound policy (op.onCell policy i cell) := by
  cases op with
  | hardFailure j now =>
      simp only [Op.onCell]
      split
      · rename_i henabled
        exact hardFailure_sound henabled.2 hsound now
      · exact hsound
  | quarantineNow j now =>
      simp only [Op.onCell]
      split
      · rename_i henabled
        exact fun _ => ⟨henabled.2, saturatingSucc_one _, le_max_right _ _⟩
      · exact hsound
  | success j now =>
      simp only [Op.onCell]
      split
      · exact fun htripped => absurd rfl htripped
      · exact hsound
  | restore j health now =>
      simp only [Op.onCell]
      split
      · rename_i happlied
        exact fun _ => ⟨happlied.2.1, le_max_right _ _, le_max_right _ _⟩
      · exact hsound
  | takeProbes now =>
      simp only [Op.onCell]
      split
      · exact tryLease_sound hsound now
      · exact hsound
  | failure j now => exact hsound
  | pick now => exact hsound
  | pickOrder now => exact hsound

/-! A record that is read back. -/

/-- What is left of a quarantine after `idle`, as it is saved and capped. -/
def carried (policy : QuarantinePolicy) (idle : Duration) (now : Instant) (cell : Cell) :
    Duration :=
  min (Duration.ofSecs (cell.snapshot now).left.asSecs - idle) policy.max

/-- What a restart makes of a cell saved at `now` and restored at `now'`, `idle` later. -/
structure Restarted (policy : QuarantinePolicy) (idle : Duration) (now now' : Instant)
    (before after : Cell) : Prop where
  alive : before.state now = .healthy → after.state now' = .healthy
  probation : before.state now = .probation → after.state now' = .probation
  used : before.state now = .quarantined → carried policy idle now before = 0 →
    after.state now' = .probation
  quarantined : before.state now = .quarantined → carried policy idle now before ≠ 0 →
    after.untilAt = some (deadline now' (carried policy idle now before)) ∧
      (now' + carried policy idle now before ≤ Instant.max →
        after.state now' = .quarantined ∧
          (after.snapshot now').left = carried policy idle now before)
  counters : before.state now ≠ .healthy →
    after.trips = before.trips ∧ after.consecutive = before.consecutive

theorem deadline_zero (now : Instant) : deadline now 0 = now := by
  unfold deadline Instant.checkedAdd
  by_cases hfar : now + far ≤ Instant.max
  · have hnow : now ≤ Instant.max := (Nat.le_add_right now far).trans hfar
    simp [hnow]
  · simp only [Nat.add_zero, hfar, if_false, Option.or_none]
    split <;> rfl

theorem deadline_add {now : Instant} {length : Duration}
    (hfits : now + length ≤ Instant.max) : deadline now length = now + length := by
  simp [deadline, Instant.checkedAdd, hfits]

theorem record_left {ρ : Type u} (group : HealthGroup ρ) (proxy : ProxyConfig) (cell : Cell)
    (now : Instant) (idle : Duration) :
    (group.record ⟨proxy, cell.health now⟩).left idle =
      match cell.state now with
      | .healthy => none
      | .probation => some (.probation, 0)
      | .quarantined =>
        if Duration.ofSecs (cell.snapshot now).left.asSecs - idle = 0 then some (.probation, 0)
        else some (.quarantined, Duration.ofSecs (cell.snapshot now).left.asSecs - idle) := by
  have hprobation : stateProbation ≠ stateQuarantined := by decide
  have halive : stateAlive ≠ stateQuarantined ∧ stateAlive ≠ stateProbation := by decide
  unfold HealthEntry.left
  have hstate : (group.record ⟨proxy, cell.health now⟩).state =
      stateName (cell.state now).upstream := rfl
  rw [hstate]
  cases cell.state now with
  | healthy => simp [State.upstream, stateName, halive]
  | probation => simp [State.upstream, stateName, hprobation]
  | quarantined =>
      have hleft : (group.record ⟨proxy, cell.health now⟩).remainingSec =
          (cell.snapshot now).left.asSecs := rfl
      simp only [hleft, State.upstream, stateName, true_and, true_or, if_true]
      split
      · rfl
      · rename_i heq
        rw [if_pos (not_not.mp heq)]

def putBack (policy : QuarantinePolicy) (now' : Instant) (saved : Cell) :
    Option (UpstreamState × Duration) → Cell
  | none => Cell.fresh
  | some (state, left) =>
    Cell.restore (state == .quarantined) left saved.trips saved.consecutive now' policy

theorem restore_counters {policy : QuarantinePolicy} {cell : Cell} (htripped : Tripped policy cell)
    (quarantined : Bool) (left : Duration) (now : Instant) :
    Cell.restore quarantined left cell.trips cell.consecutive now policy =
      ⟨cell.consecutive, cell.trips,
        some (deadline now (if quarantined then min left policy.max else 0)), none⟩ := by
  simp only [Cell.restore, max_eq_left htripped.trips, max_eq_left htripped.consecutive]

theorem putBack_tripped {ρ : Type u} {policy : QuarantinePolicy} {cell : Cell}
    (htripped : Tripped policy cell) (group : HealthGroup ρ) (proxy : ProxyConfig)
    (idle : Duration) (now now' : Instant) (hstate : cell.state now ≠ .healthy) :
    putBack policy now' cell ((group.record ⟨proxy, cell.health now⟩).left idle) =
      ⟨cell.consecutive, cell.trips, some (deadline now' (carried policy idle now cell)),
        none⟩ := by
  rw [record_left]
  cases hcase : cell.state now with
  | healthy => exact absurd hcase hstate
  | probation =>
      have hcarried : carried policy idle now cell = 0 := by
        simp [carried, Cell.snapshot, hcase, Duration.asSecs, Duration.ofSecs]
      simp [putBack, restore_counters htripped, hcarried]
  | quarantined =>
      dsimp only
      split
      · rename_i hused
        simp [putBack, restore_counters htripped, carried, hused]
      · simp [putBack, restore_counters htripped, carried]

theorem putBack_restarted {ρ : Type u} {policy : QuarantinePolicy} {cell : Cell}
    (hsound : Sound policy cell) (group : HealthGroup ρ) (proxy : ProxyConfig)
    (idle : Duration) (now now' : Instant) :
    Restarted policy idle now now' cell
      (putBack policy now' cell ((group.record ⟨proxy, cell.health now⟩).left idle)) := by
  by_cases hhealthy : cell.state now = .healthy
  · have hfresh : Cell.fresh.state now' = .healthy := Cell.state_healthy.mpr rfl
    rw [record_left]
    constructor <;> simp [hhealthy, putBack, hfresh]
  · have htripped := hsound (fun hnone => hhealthy (Cell.state_healthy.mpr hnone))
    rw [putBack_tripped htripped group proxy idle now now' hhealthy]
    have hended : carried policy idle now cell = 0 →
        Cell.state ⟨cell.consecutive, cell.trips,
          some (deadline now' (carried policy idle now cell)), none⟩ now' = .probation := by
      intro hzero
      exact Cell.state_probation.mpr ⟨_, rfl, by rw [hzero, deadline_zero]⟩
    refine ⟨fun halive => absurd halive hhealthy, fun hprobation => hended ?_,
      fun _ => hended, fun _ hleft => ⟨rfl, fun hfits => ?_⟩, fun _ => ⟨rfl, rfl⟩⟩
    · simp [carried, Cell.snapshot, hprobation, Duration.asSecs, Duration.ofSecs]
    · have hrunning : Cell.state ⟨cell.consecutive, cell.trips,
          some (now' + carried policy idle now cell), none⟩ now' = .quarantined :=
        Cell.state_quarantined.mpr
          ⟨_, rfl, Nat.lt_add_of_pos_right (Nat.pos_of_ne_zero hleft)⟩
      rw [deadline_add hfits]
      exact ⟨hrunning, by simp [Cell.snapshot, hrunning]⟩

/-! The rotators that the groups are built with. -/

/-- What a group is, whatever state its use has led to. -/
structure Shaped {ρ : Type u} (quarantine : QuarantinePolicy) (upstreams : List ProxyConfig)
    (rotator : Rotator ρ) : Prop where
  proxies : rotator.proxies = Rotator.unique [] upstreams
  policy : rotator.ratings.quarantine = quarantine
  length : rotator.ratings.inner.quarantine.length = rotator.proxies.length
  sound : ∀ (i : Nat) cell, rotator.ratings.inner.quarantine[i]? = some cell → Sound quarantine cell

theorem Shaped.nodup {ρ : Type u} {quarantine : QuarantinePolicy}
    {upstreams : List ProxyConfig} {rotator : Rotator ρ}
    (hshaped : Shaped quarantine upstreams rotator) :
    (rotator.proxies.map (·.node)).Nodup := by
  rw [hshaped.proxies]
  exact Rotator.unique_nodup [] upstreams List.nodup_nil

theorem tryWithQuarantine_shaped {ρ : Type u} {arith : FloatArith} {policy : RatingPolicy}
    {quarantine : QuarantinePolicy} {upstreams : List ProxyConfig} {start : Instant} {seed : ρ}
    {rotator : Rotator ρ}
    (hbuilt : Rotator.tryWithQuarantine arith upstreams policy quarantine start seed =
      .ok rotator) :
    Shaped quarantine upstreams rotator ∧
      ∀ (i : Nat) cell, rotator.ratings.inner.quarantine[i]? = some cell → cell = Cell.fresh := by
  obtain ⟨-, -, rfl⟩ := Rotator.tryWithQuarantine_ok hbuilt
  have hfresh : ∀ (n i : Nat) (cell : Cell),
      (List.replicate n Cell.fresh)[i]? = some cell → cell = Cell.fresh := by
    intro n i cell hcell
    exact List.eq_of_mem_replicate (List.mem_of_getElem? hcell)
  refine ⟨⟨rfl, rfl, by simp [Ratings.fresh], fun i cell hcell => ?_⟩, hfresh _⟩
  rw [hfresh _ i cell hcell]
  exact fun htripped => absurd rfl htripped

theorem applyAll_shaped {ρ : Type u} {quarantine : QuarantinePolicy}
    {upstreams : List ProxyConfig} {rotator : Rotator ρ}
    (hshaped : Shaped quarantine upstreams rotator) (arith : FloatArith) (rng : Rng ρ)
    (ops : List Op) :
    Shaped quarantine upstreams
      { rotator with ratings := rotator.ratings.applyAll arith rng ops } := by
  obtain ⟨hpolicy, hlength, hsound⟩ := Ratings.applyAll_cell arith rng
    (fun policy _ cell => Sound policy cell) ops rotator.ratings
    (fun op _ i cell hcell => onCell_sound hcell op)
    (by
      intro i cell hcell
      rw [hshaped.policy]
      exact hshaped.sound i cell hcell)
  refine ⟨hshaped.proxies, hpolicy.trans hshaped.policy, ?_, ?_⟩
  · rw [← hshaped.length]
    simpa only [Inner.sized] using hlength
  · rw [← hshaped.policy]
    exact hsound

/-! Putting entries back into a rotator, slot by slot. -/

def backInto {ρ : Type u} (rotator : Rotator ρ) (now : Instant) (i : Nat)
    (entry : UpstreamHealth) (cell : Cell) : Cell :=
  if rotator.indexOf entry.proxy = some i then
    Op.onCell rotator.ratings.quarantine i (.restore i entry.health now) cell
  else cell

theorem restoreEntry_cell {ρ : Type u} (rotator : Rotator ρ) (entry : UpstreamHealth)
    (now : Instant) :
    Rotator.SameShape rotator (rotator.restoreEntry entry now).2 ∧
      ∀ i, (rotator.restoreEntry entry now).2.ratings.inner.quarantine[i]? =
        rotator.ratings.inner.quarantine[i]?.map (backInto rotator now i entry) := by
  unfold Rotator.restoreEntry
  cases hindex : rotator.indexOf entry.proxy with
  | none =>
      refine ⟨Rotator.SameShape.refl rotator, fun i => Ratings.map_untouched fun cell _ => ?_⟩
      simp [backInto, hindex]
  | some j =>
      have hpolicy : (rotator.ratings.restoreHealth j entry.health now).2.policy =
          rotator.ratings.policy := by
        unfold Ratings.restoreHealth
        split
        · rfl
        · split <;> rfl
      refine ⟨⟨rfl, hpolicy, (Ratings.restoreHealth_cell rotator.ratings j entry.health now 0).1⟩,
        fun i => ?_⟩
      · refine (Ratings.restoreHealth_cell rotator.ratings j entry.health now i).2.trans ?_
        refine Option.map_congr fun cell _ => ?_
        by_cases hsame : j = i
        · simp [backInto, hindex, hsame]
        · simp [backInto, hindex, hsame, Op.onCell]

theorem SameShape_backInto {ρ : Type u} {before after : Rotator ρ}
    (hshape : Rotator.SameShape before after) (now : Instant) (i : Nat)
    (entry : UpstreamHealth) : backInto after now i entry = backInto before now i entry := by
  funext cell
  rw [backInto, backInto, hshape.indexOf, hshape.quarantine]

theorem restoreHealth_cells {ρ : Type u} (rotator : Rotator ρ) (now : Instant)
    (entries : List UpstreamHealth) :
    Rotator.SameShape rotator (rotator.restoreHealth now entries).2 ∧
      ∀ i, (rotator.restoreHealth now entries).2.ratings.inner.quarantine[i]? =
        rotator.ratings.inner.quarantine[i]?.map fun cell =>
          entries.foldl (fun cell entry => backInto rotator now i entry cell) cell := by
  induction entries generalizing rotator with
  | nil => exact ⟨Rotator.SameShape.refl rotator, fun i => by simp [Rotator.restoreHealth]⟩
  | cons entry rest ih =>
      obtain ⟨hshape, hcells⟩ := restoreEntry_cell rotator entry now
      obtain ⟨hshape', hcells'⟩ := ih (rotator.restoreEntry entry now).2
      refine ⟨hshape.trans hshape', fun i => ?_⟩
      rw [Rotator.restoreHealth]
      dsimp only
      rw [hcells' i, hcells i, Option.map_map]
      refine Option.map_congr fun cell _ => ?_
      simp only [Function.comp_apply, List.foldl_cons, SameShape_backInto hshape]

theorem entryFor_proxy {file : HealthFile} {group : Bytes} {idle : Duration}
    {proxy : ProxyConfig} {entry : UpstreamHealth}
    (hentry : file.entryFor group idle proxy = some entry) : entry.proxy = proxy := by
  simp only [HealthFile.entryFor, Option.bind_eq_bind, Option.bind_eq_some_iff,
    Option.some.injEq] at hentry
  obtain ⟨_, _, _, _, rfl⟩ := hentry
  rfl

theorem foldl_backInto_other {ρ : Type u} {rotator : Rotator ρ} {now : Instant} {i : Nat}
    {entries : List UpstreamHealth}
    (hother : ∀ entry ∈ entries, rotator.indexOf entry.proxy ≠ some i) (cell : Cell) :
    entries.foldl (fun cell entry => backInto rotator now i entry cell) cell = cell := by
  induction entries with
  | nil => rfl
  | cons entry rest ih =>
      rw [List.foldl_cons, backInto, if_neg (hother entry List.mem_cons_self)]
      exact ih fun entry hentry => hother entry (List.mem_cons_of_mem _ hentry)

theorem split_at {α : Type u} {items : List α} {i : Nat} {item : α}
    (hitem : items[i]? = some item) :
    items = items.take i ++ item :: items.drop (i + 1) := by
  obtain ⟨hlt, rfl⟩ := List.getElem?_eq_some_iff.mp hitem
  rw [← List.drop_eq_getElem_cons hlt, List.take_append_drop]

theorem restore_slot {ρ : Type u} {group : HealthGroup ρ}
    (hnodup : (group.rotator.proxies.map (·.node)).Nodup) (file : HealthFile)
    (idle : Duration) (now : Instant) {i : Nat} {proxy : ProxyConfig}
    (hproxy : group.rotator.proxies[i]? = some proxy) :
    (group.restore file idle now).2.rotator.ratings.inner.quarantine[i]? =
      group.rotator.ratings.inner.quarantine[i]?.map fun cell =>
        match file.entryFor group.name idle proxy with
        | none => cell
        | some entry => backInto group.rotator now i entry cell := by
  have hsplit := split_at hproxy
  have hapart : ∀ other ∈ group.rotator.proxies.take i ++ group.rotator.proxies.drop (i + 1),
      group.rotator.indexOf other ≠ some i := by
    intro other hother hindex
    have hsame := (Rotator.indexOf_eq hnodup hproxy).mp hindex
    rw [hsplit, List.map_append, List.map_cons, List.nodup_middle,
      List.nodup_cons, ← List.map_append] at hnodup
    exact hnodup.1 (List.mem_map.mpr ⟨other, hother, hsame.symm⟩)
  have huntouched : ∀ others, others ⊆ group.rotator.proxies.take i ++
      group.rotator.proxies.drop (i + 1) → ∀ cell,
      (others.filterMap (file.entryFor group.name idle)).foldl
        (fun cell entry => backInto group.rotator now i entry cell) cell = cell := by
    intro others hothers cell
    refine foldl_backInto_other (fun entry hentry => ?_) cell
    obtain ⟨other, hother, hsome⟩ := List.mem_filterMap.mp hentry
    rw [entryFor_proxy hsome]
    exact hapart other (hothers hother)
  refine ((restoreHealth_cells group.rotator now _).2 i).trans ?_
  refine Option.map_congr fun cell _ => ?_
  rw [hsplit, List.filterMap_append, List.foldl_append,
    huntouched _ (List.subset_append_left _ _), List.filterMap_cons]
  cases file.entryFor group.name idle proxy with
  | none => exact huntouched _ (List.subset_append_right _ _) cell
  | some entry => exact huntouched _ (List.subset_append_right _ _) _

/-! Which record an upstream finds. -/

def recordKey (proxy : ProxyConfig) : Bytes × UInt8 :=
  (upstreamLabel proxy, proxy.node.gateLevel)

/-- The last upstream that is recorded under the key of `i`. -/
structure LastNamesake (proxies : List ProxyConfig) (i j : Nat) : Prop where
  bound : j < proxies.length
  key : proxies[j]?.map recordKey = proxies[i]?.map recordKey
  last : ∀ m, j < m → m < proxies.length →
    proxies[m]?.map recordKey ≠ proxies[i]?.map recordKey

/-- No other upstream is recorded under the key of `i`. -/
def Unshared (proxies : List ProxyConfig) (i : Nat) : Prop :=
  ∀ m, m < proxies.length → proxies[m]?.map recordKey = proxies[i]?.map recordKey → m = i

theorem exists_lastNamesake {proxies : List ProxyConfig} {i : Nat} (hi : i < proxies.length) :
    ∃ j, LastNamesake proxies i j := by
  let shares : Nat → Prop := fun j =>
    j < proxies.length ∧ proxies[j]?.map recordKey = proxies[i]?.map recordKey
  have hbounded : ∀ j, shares j → j ≤ proxies.length := fun j hj => hj.1.le
  classical
  have hfound := Nat.findGreatest_spec (P := shares) hi.le ⟨hi, rfl⟩
  refine ⟨Nat.findGreatest shares proxies.length, hfound.1, hfound.2, fun m hm hlt hkey => ?_⟩
  exact Nat.findGreatest_is_greatest hm hlt.le ⟨hlt, hkey⟩

theorem LastNamesake.of_unshared {proxies : List ProxyConfig} {i j : Nat}
    (hlast : LastNamesake proxies i j) (hunshared : Unshared proxies i) : j = i :=
  hunshared j hlast.bound hlast.key

theorem find?_reverse_last {α : Type u} {p : α → Bool} {front back : List α} {item : α}
    (hitem : p item = true) (hback : ∀ later ∈ back, ¬ p later = true) :
    (front ++ item :: back).reverse.find? p = some item := by
  have hnone : back.reverse.find? p = none :=
    List.find?_eq_none.mpr fun later hlater => hback later (List.mem_reverse.mp hlater)
  rw [List.reverse_append, List.reverse_cons, List.append_assoc, List.find?_append, hnone]
  simp [hitem]

def HealthGroup.records {ρ : Type u} (group : HealthGroup ρ) (now : Instant) :
    List HealthEntry :=
  (group.rotator.health now).map group.record

theorem records_getElem? {ρ : Type u} {group : HealthGroup ρ} {now : Instant} {m : Nat}
    {entry : HealthEntry} :
    (group.records now)[m]? = some entry ↔ ∃ proxy cell,
      group.rotator.proxies[m]? = some proxy ∧
      group.rotator.ratings.inner.quarantine[m]? = some cell ∧
      entry = group.record ⟨proxy, cell.health now⟩ := by
  rw [HealthGroup.records, Rotator.health, Ratings.health, List.getElem?_map,
    List.getElem?_zipWith, List.getElem?_map]
  cases group.rotator.proxies[m]? with
  | none => simp
  | some proxy =>
      cases group.rotator.ratings.inner.quarantine[m]? with
      | none => simp
      | some cell => simp [eq_comm]

theorem saved_snapshot {ρ : Type u} {groups : List (HealthGroup ρ)}
    (hnames : (groups.map (·.name)).Nodup) (savedAt : Nat) (now : Instant) {k i j : Nat}
    {group : HealthGroup ρ} {proxy namesake : ProxyConfig} {cell : Cell}
    (hgroup : groups[k]? = some group) (hproxy : group.rotator.proxies[i]? = some proxy)
    (hlast : LastNamesake group.rotator.proxies i j)
    (hnamesake : group.rotator.proxies[j]? = some namesake)
    (hcell : group.rotator.ratings.inner.quarantine[j]? = some cell) :
    (snapshot groups savedAt now).saved (upstreamLabel proxy) proxy.node.gateLevel group.name =
      some (group.record ⟨namesake, cell.health now⟩) := by
  have hkey : recordKey namesake = recordKey proxy := by
    simpa [hnamesake, hproxy] using hlast.key
  have hrecord : (group.records now)[j]? = some (group.record ⟨namesake, cell.health now⟩) :=
    records_getElem?.mpr ⟨namesake, cell, hnamesake, hcell, rfl⟩
  have hall : (snapshot groups savedAt now).upstreams =
      groups.flatMap fun group => group.records now := rfl
  rw [HealthFile.saved, hall, split_at hgroup, List.flatMap_append, List.flatMap_cons,
    split_at hrecord, List.append_assoc, List.cons_append, ← List.append_assoc]
  refine find?_reverse_last ?_ fun later hlater => ?_
  · simp only [recordKey, Prod.mk.injEq] at hkey
    simp [HealthGroup.record, hkey.1, hkey.2]
  · intro hmatch
    simp only [Bool.and_eq_true, beq_iff_eq] at hmatch
    obtain ⟨⟨hlabel, hgate⟩, hname⟩ := hmatch
    obtain hsame | hother := List.mem_append.mp hlater
    · -- a later record of the same group carries another key
      obtain ⟨d, hd⟩ := List.mem_iff_getElem?.mp hsame
      rw [List.getElem?_drop] at hd
      obtain ⟨other, otherCell, hat, _, rfl⟩ := records_getElem?.mp hd
      refine hlast.last (j + 1 + d) (by omega) (List.getElem?_eq_some_iff.mp hat).1 ?_
      rw [hat, hproxy]
      simp only [Option.map_some, recordKey]
      exact congrArg some (Prod.ext hlabel hgate)
    · -- a later group carries another name
      obtain ⟨otherGroup, hin, hrecord'⟩ := List.mem_flatMap.mp hother
      obtain ⟨d, hd⟩ := List.mem_iff_getElem?.mp hrecord'
      obtain ⟨other, otherCell, _, _, rfl⟩ := records_getElem?.mp hd
      rw [split_at hgroup, List.map_append, List.map_cons, List.nodup_middle,
        List.nodup_cons, ← List.map_append] at hnames
      exact hnames.1 (List.mem_map.mpr ⟨otherGroup, List.mem_append_right _ hin, hname⟩)

/-! A restart. -/

structure GroupConfig where
  name : Bytes
  upstreams : List ProxyConfig
  deriving DecidableEq, Repr

section

variable {ρ : Type u}

structure GroupConfig.Built (config : GroupConfig) (arith : FloatArith) (policy : RatingPolicy)
    (quarantine : QuarantinePolicy) (group : HealthGroup ρ) : Prop where
  name : group.name = config.name
  rotator : ∃ start seed, Rotator.tryWithQuarantine arith config.upstreams policy quarantine start
    seed = .ok group.rotator

/-- A group in any state that its use may have led to. -/
structure GroupConfig.Used (config : GroupConfig) (arith : FloatArith) (rng : Rng ρ)
    (policy : RatingPolicy) (quarantine : QuarantinePolicy) (group : HealthGroup ρ) : Prop where
  name : group.name = config.name
  rotator : ∃ (start : Instant) (seed : ρ) (fresh : Rotator ρ) (ops : List Op),
    Rotator.tryWithQuarantine arith config.upstreams policy quarantine start seed = .ok fresh ∧
    group.rotator = { fresh with ratings := fresh.ratings.applyAll arith rng ops }

/-- After the restart, upstream `i` is as upstream `j` was before it. -/
def ComesBack (quarantine : QuarantinePolicy) (idle : Duration) (now now' : Instant)
    (before after : Rotator ρ) (j i : Nat) : Prop :=
  ∃ cell cell', before.ratings.inner.quarantine[j]? = some cell ∧
    after.ratings.inner.quarantine[i]? = some cell' ∧
    Restarted quarantine idle now now' cell cell'

theorem restoreGroups_getElem? (file : HealthFile) (idle : Duration) (now : Instant)
    (restored : Restored) (groups : List (HealthGroup ρ)) (k : Nat) :
    (restoreGroups file idle now restored groups).2[k]? =
      groups[k]?.map fun group => (group.restore file idle now).2 := by
  induction groups generalizing restored k with
  | nil => simp [restoreGroups]
  | cons group rest ih =>
      rw [restoreGroups]
      cases k with
      | zero => rfl
      | succ k => exact ih _ k

theorem forall₂_getElem? {α : Type u} {β : Type v} {R : α → β → Prop} {left : List α}
    {right : List β} (hall : List.Forall₂ R left right) (k : Nat) :
    (∀ b, right[k]? = some b → ∃ a, left[k]? = some a ∧ R a b) ∧
      ∀ a, left[k]? = some a → ∃ b, right[k]? = some b ∧ R a b := by
  induction hall generalizing k with
  | nil => simp
  | cons hhead _ ih =>
      cases k with
      | zero => exact ⟨fun b hb => ⟨_, rfl, by cases hb; exact hhead⟩,
          fun a ha => ⟨_, rfl, by cases ha; exact hhead⟩⟩
      | succ k => exact ih k

theorem forall₂_names {configs : List GroupConfig} {groups : List (HealthGroup ρ)}
    (hnames : List.Forall₂ (fun config group => group.name = config.name) configs groups) :
    groups.map (·.name) = configs.map (·.name) := by
  induction hnames with
  | nil => rfl
  | cons hhead _ ih => rw [List.map_cons, List.map_cons, hhead, ih]

theorem backInto_record {group rebuilt : HealthGroup ρ} {quarantine : QuarantinePolicy}
    (hpolicy : rebuilt.rotator.ratings.quarantine = quarantine) {cell : Cell}
    (hsound : Sound quarantine cell) {file : HealthFile} {proxy namesake : ProxyConfig} {i : Nat}
    (hindex : rebuilt.rotator.indexOf proxy = some i) (idle : Duration) (now now' : Instant)
    (hsaved : file.saved (upstreamLabel proxy) proxy.node.gateLevel rebuilt.name =
      some (group.record ⟨namesake, cell.health now⟩)) :
    (match file.entryFor rebuilt.name idle proxy with
    | none => Cell.fresh
    | some entry => backInto rebuilt.rotator now' i entry Cell.fresh) =
      putBack quarantine now' cell ((group.record ⟨namesake, cell.health now⟩).left idle) := by
  simp only [HealthFile.entryFor, hsaved, Option.some_or, Option.bind_eq_bind,
    Option.bind_some]
  cases hleft : (group.record ⟨namesake, cell.health now⟩).left idle with
  | none => rfl
  | some saved =>
      obtain ⟨state, left⟩ := saved
      have hnotAlive : state ≠ .alive ∧ cell.state now ≠ .healthy := by
        rw [record_left] at hleft
        cases hstate : cell.state now with
        | healthy => simp [hstate] at hleft
        | probation =>
            simp only [hstate, Option.some.injEq, Prod.mk.injEq] at hleft
            exact ⟨by simp [← hleft.1], by simp⟩
        | quarantined =>
            simp only [hstate] at hleft
            split at hleft <;> cases hleft <;> simp
      have htripped := hsound fun hnone => hnotAlive.2 (Cell.state_healthy.mpr hnone)
      simp only [Option.bind_some, backInto, hindex, if_true, Op.onCell, hpolicy, putBack]
      rw [if_pos ⟨trivial, htripped.enabled, hnotAlive.1⟩]
      rfl

/-- Restart fidelity: each upstream comes back as the last one of its group that is recorded
under the same label and gate level was, so as itself when it shares these with no other. -/
theorem restart_fidelity (arith : FloatArith) (rng : Rng ρ) (policy policy' : RatingPolicy)
    (quarantine : QuarantinePolicy) (configs : List GroupConfig)
    (hnames : (configs.map (·.name)).Nodup) (groups rebuilt : List (HealthGroup ρ))
    (hgroups : List.Forall₂ (fun config group =>
      config.Used arith rng policy quarantine group) configs groups)
    (hrebuilt : List.Forall₂ (fun config group =>
      config.Built arith policy' quarantine group) configs rebuilt)
    (savedAt restoredAt : Nat) (now now' : Instant) (k : Nat) (before : HealthGroup ρ)
    (hbefore : groups[k]? = some before) :
    ∃ after,
      (restore rebuilt (snapshot groups savedAt now) restoredAt now').2[k]? = some after ∧
      after.name = before.name ∧ after.rotator.proxies = before.rotator.proxies ∧
      ∀ i, i < before.rotator.proxies.length → ∃ j,
        LastNamesake before.rotator.proxies i j ∧
        (Unshared before.rotator.proxies i → j = i) ∧
        ComesBack quarantine (Duration.ofSecs (restoredAt - savedAt)) now now'
          before.rotator after.rotator j i := by
  obtain ⟨config, hconfig, hused⟩ := (forall₂_getElem? hgroups k).1 before hbefore
  obtain ⟨group, hgroup, hbuilt⟩ := (forall₂_getElem? hrebuilt k).2 config hconfig
  have hnodup : (groups.map (·.name)).Nodup := by
    rw [forall₂_names (hgroups.imp fun _ _ h => h.name)]
    exact hnames
  obtain ⟨start, seed, fresh, ops, hfresh, hrotator⟩ := hused.rotator
  have hshaped : Shaped quarantine config.upstreams before.rotator := by
    rw [hrotator]
    exact applyAll_shaped (tryWithQuarantine_shaped hfresh).1 arith rng ops
  obtain ⟨start', seed', hagain⟩ := hbuilt.rotator
  obtain ⟨hshaped', hcells'⟩ := tryWithQuarantine_shaped hagain
  have hname : group.name = before.name := hbuilt.name.trans hused.name.symm
  have hproxies : group.rotator.proxies = before.rotator.proxies :=
    hshaped'.proxies.trans hshaped.proxies.symm
  let file := snapshot groups savedAt now
  let idle := Duration.ofSecs (restoredAt - savedAt)
  refine ⟨(group.restore file idle now').2, ?_, hname, ?_, fun i hi => ?_⟩
  · rw [restore, restoreGroups_getElem?, hgroup]
    rfl
  · exact (restoreHealth_cells group.rotator now' _).1.proxies.trans hproxies
  · obtain ⟨j, hlast⟩ := exists_lastNamesake hi
    obtain ⟨proxy, hproxy⟩ : ∃ proxy, before.rotator.proxies[i]? = some proxy :=
      ⟨_, List.getElem?_eq_getElem hi⟩
    obtain ⟨namesake, hnamesake⟩ : ∃ namesake, before.rotator.proxies[j]? = some namesake :=
      ⟨_, List.getElem?_eq_getElem hlast.bound⟩
    obtain ⟨cell, hcell⟩ : ∃ cell, before.rotator.ratings.inner.quarantine[j]? = some cell :=
      ⟨_, List.getElem?_eq_getElem (hshaped.length ▸ hlast.bound)⟩
    have hfreshCell : group.rotator.ratings.inner.quarantine[i]? = some Cell.fresh := by
      have hlt : i < group.rotator.ratings.inner.quarantine.length := by
        rw [hshaped'.length, hproxies]
        exact hi
      rw [List.getElem?_eq_getElem hlt,
        hcells' i _ (List.getElem?_eq_getElem hlt)]
    have hproxy' : group.rotator.proxies[i]? = some proxy := by rw [hproxies, hproxy]
    have hsaved := saved_snapshot hnodup savedAt now hbefore hproxy hlast hnamesake hcell
    rw [← hname] at hsaved
    refine ⟨j, hlast, hlast.of_unshared, cell, _, hcell, ?_,
      putBack_restarted (hshaped.sound j cell hcell) before namesake idle now now'⟩
    rw [restore_slot hshaped'.nodup file idle now' hproxy', hfreshCell, Option.map_some]
    exact congrArg some (backInto_record hshaped'.policy (hshaped.sound j cell hcell)
      ((Rotator.indexOf_eq hshaped'.nodup hproxy').mpr rfl) idle now now' hsaved)

end

def samplePolicy : RatingPolicy :=
  ⟨.finite 30, .finite 0, .finite 8, .finite 1, .finite 1⟩

def sampleQuarantine : QuarantinePolicy :=
  ⟨1, Duration.ofSecs 30, Duration.ofSecs 600, Duration.ofSecs 25, one_le_u32Max⟩

def sampleAccount (host password : UInt8) : ProxyConfig :=
  ⟨⟨.socks5, [host], 1080, some [117], some [password], 0⟩, []⟩

def sampleFresh (config : GroupConfig) : HealthGroup UInt64 :=
  ⟨config.name, ⟨config.upstreams,
    Ratings.fresh config.upstreams.length samplePolicy sampleQuarantine 0 7⟩⟩

theorem sampleFresh_built (config : GroupConfig) (hne : config.upstreams ≠ [])
    (hunique : Rotator.unique [] config.upstreams = config.upstreams) :
    Rotator.tryWithQuarantine Ratings.exactArith config.upstreams samplePolicy sampleQuarantine 0
      7 = .ok (sampleFresh config).rotator := by
  have haccepted : Accepted Ratings.exactArith samplePolicy sampleQuarantine :=
    ⟨by decide +kernel, by decide⟩
  rw [Rotator.tryWithQuarantine_accepted haccepted hne, hunique]
  rfl

def sampleUsed (config : GroupConfig) : HealthGroup UInt64 :=
  { sampleFresh config with
    rotator := { (sampleFresh config).rotator with
      ratings := (sampleFresh config).rotator.ratings.applyAll Ratings.exactArith smallRng
        [.hardFailure 1 0] } }

def sampleHosts : GroupConfig :=
  ⟨[118], [sampleAccount 97 120, sampleAccount 98 120]⟩

def sampleTwins : GroupConfig :=
  ⟨[118], [sampleAccount 97 120, sampleAccount 97 121]⟩

/-- The alive upstream comes back alive, the failed one in quarantine. -/
theorem restart_fidelity_hosts :
    ∃ after, (restore [sampleFresh sampleHosts] (snapshot [sampleUsed sampleHosts] 100 5)
        110 5).2[0]? = some after ∧
      after.name = sampleHosts.name ∧ after.rotator.proxies = sampleHosts.upstreams ∧
      ∀ i, i < 2 → ∃ j, LastNamesake sampleHosts.upstreams i j ∧
        (Unshared sampleHosts.upstreams i → j = i) ∧
        ComesBack sampleQuarantine (Duration.ofSecs 10) 5 5 (sampleUsed sampleHosts).rotator
          after.rotator j i :=
  restart_fidelity Ratings.exactArith smallRng samplePolicy samplePolicy sampleQuarantine
    [sampleHosts] (by decide) [sampleUsed sampleHosts] [sampleFresh sampleHosts]
    (.cons ⟨rfl, 0, 7, (sampleFresh sampleHosts).rotator, [.hardFailure 1 0],
      sampleFresh_built sampleHosts (by decide) (by decide), rfl⟩ .nil)
    (.cons ⟨rfl, 0, 7, sampleFresh_built sampleHosts (by decide) (by decide)⟩ .nil) 100 110 5 5 0
    (sampleUsed sampleHosts) rfl

/-- Passwords are not written: of two upstreams that differ in nothing else, the alive one
comes back in the quarantine of the other. -/
theorem restart_mixes_passwords :
    sampleTwins.Used Ratings.exactArith smallRng samplePolicy sampleQuarantine
        (sampleUsed sampleTwins) ∧
      sampleTwins.Built Ratings.exactArith samplePolicy sampleQuarantine (sampleFresh sampleTwins) ∧
      ∃ after, (restore [sampleFresh sampleTwins] (snapshot [sampleUsed sampleTwins] 100 5)
          110 5).2[0]? = some after ∧
        ¬ ComesBack sampleQuarantine (Duration.ofSecs 10) 5 5
          (sampleUsed sampleTwins).rotator after.rotator 0 0 := by
  have hquarantined : ((restore [sampleFresh sampleTwins]
      (snapshot [sampleUsed sampleTwins] 100 5) 110 5).2[0]?.bind fun after =>
        after.rotator.ratings.inner.quarantine[0]?.bind Cell.untilAt) ≠ none := by
    decide +kernel
  have hbuilt := sampleFresh_built sampleTwins (by decide) (by decide)
  refine ⟨⟨rfl, 0, 7, (sampleFresh sampleTwins).rotator, [.hardFailure 1 0], hbuilt, rfl⟩,
    ⟨rfl, 0, 7, hbuilt⟩, _, rfl, ?_⟩
  rintro ⟨cell, cell', hcell, hcell', hrestarted⟩
  obtain rfl : Cell.fresh = cell := Option.some.inj hcell
  have halive := Cell.state_healthy.mp (hrestarted.alive rfl)
  exact hquarantined ((congrArg (Option.bind · Cell.untilAt) hcell').trans halive)

end Resocks5.Server
