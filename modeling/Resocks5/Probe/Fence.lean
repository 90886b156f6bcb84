import Resocks5.Foundation.Run
import Resocks5.Probe.ChainProbes
import Resocks5.Server.HealthFidelity

namespace Resocks5.Probe

open Resocks5.Chain
open Resocks5.Foundation
open Resocks5.Rating
open Resocks5.Server
open Resocks5.Session
open Resocks5.Types

/-! Probes of the inner levels against the leases of their cells. -/

theorem probeDeadline_mono (connectTimeout handshakeTimeout : Duration) {depth count : Nat}
    (hle : depth ≤ count) :
    probeDeadline connectTimeout handshakeTimeout depth ≤
      probeDeadline connectTimeout handshakeTimeout count := by
  have hturns : min (depth + 1) u32Max ≤ min (count + 1) u32Max :=
    min_le_min_right _ (Nat.succ_le_succ hle)
  exact min_le_min_right _ (Nat.add_le_add_left
    (min_le_min_right _ (Nat.mul_le_mul_left handshakeTimeout hturns)) connectTimeout)

theorem probeDeadline_lt (connectTimeout handshakeTimeout : Duration) {depth count : Nat}
    (hle : depth ≤ count) :
    probeDeadline connectTimeout handshakeTimeout depth - Duration.ofSecs 1 <
      probeLease connectTimeout handshakeTimeout count := by
  have hmono := probeDeadline_mono connectTimeout handshakeTimeout hle
  have hbound : probeDeadline connectTimeout handshakeTimeout count ≤ Duration.max :=
    min_le_right _ _
  have hsecond : 0 < Duration.ofSecs 1 := by decide
  have hmargin : 0 < probeLeaseMargin := by decide
  have hmax : 0 < Duration.max := by decide
  have hless : probeDeadline connectTimeout handshakeTimeout depth - Duration.ofSecs 1 <
      probeDeadline connectTimeout handshakeTimeout count + probeLeaseMargin :=
    lt_of_le_of_lt ((Nat.sub_le _ _).trans hmono) (Nat.lt_add_of_pos_right hmargin)
  refine lt_min hless ?_
  obtain hzero | hpos := Nat.eq_zero_or_pos (probeDeadline connectTimeout handshakeTimeout depth)
  · rw [hzero, Nat.zero_sub]
    exact hmax
  · exact lt_of_lt_of_le (Nat.sub_lt hpos hsecond) (hmono.trans hbound)

/-! The cells under way. -/

/-- No lease of the cell ends before the fence. -/
def Keeps (fence : Instant) (cell : Cell) : Prop :=
  ∀ lease, cell.leaseUntil = some lease → fence ≤ lease

theorem hardFailure_lease (cell : Cell) (now : Instant) (policy : QuarantinePolicy) :
    (cell.hardFailure now policy).2.leaseUntil = none ∨
      (cell.hardFailure now policy).2.leaseUntil = cell.leaseUntil := by
  unfold Cell.hardFailure
  split
  · exact .inr rfl
  · dsimp only
    split
    · exact .inl rfl
    · exact .inl rfl

theorem onCell_lease {op : Op} (htakes : takes op = false) (policy : QuarantinePolicy) (i : Nat)
    (cell : Cell) :
    (op.onCell policy i cell).leaseUntil = none ∨
      (op.onCell policy i cell).leaseUntil = cell.leaseUntil := by
  cases op with
  | takeProbes now => cases htakes
  | hardFailure j now =>
      simp only [Op.onCell]
      split
      · exact hardFailure_lease cell now policy
      · exact .inr rfl
  | quarantineNow j now =>
      simp only [Op.onCell]
      split
      · exact .inl rfl
      · exact .inr rfl
  | success j now =>
      simp only [Op.onCell]
      split
      · exact .inl rfl
      · exact .inr rfl
  | restore j health now =>
      simp only [Op.onCell]
      split
      · exact .inl rfl
      · exact .inr rfl
  | failure j now => exact .inr rfl
  | pick now => exact .inr rfl
  | pickOrder now => exact .inr rfl

theorem Keeps.onCell {fence : Instant} {op : Op} {policy : QuarantinePolicy} {i : Nat}
    {cell : Cell} (htakes : takes op = false) (hkeeps : Keeps fence cell) :
    Keeps fence (op.onCell policy i cell) := by
  intro lease hlease
  obtain hnone | hsame := onCell_lease htakes policy i cell
  · rw [hnone] at hlease
    cases hlease
  · exact hkeeps lease (hsame ▸ hlease)

section

variable {ρ : Type u} {arith : FloatArith} {rng : Rng ρ} {setup : Setup} {world next : World ρ}

/-- No lease of the upstream in slot `i` ends before the fence. -/
def Held (rotator : Rotator ρ) (i : Nat) (fence : Instant) : Prop :=
  ∀ cell, rotator.ratings.inner.quarantine[i]? = some cell → Keeps fence cell

theorem use_cell (rotator : Rotator ρ) (op : Op) (i : Nat) :
    (rotator.use arith rng [op]).ratings.inner.quarantine[i]? =
      rotator.ratings.inner.quarantine[i]?.map (op.onCell rotator.ratings.quarantine i) :=
  (Ratings.apply_cell rotator.ratings op i).2

theorem Held.use {rotator : Rotator ρ} {i : Nat} {fence : Instant} {op : Op}
    (htakes : takes op = false) (hheld : Held rotator i fence) :
    Held (rotator.use arith rng [op]) i fence := by
  intro cell hcell
  rw [use_cell] at hcell
  obtain ⟨old, hold, rfl⟩ := Option.map_eq_some_iff.mp hcell
  exact (hheld old hold).onCell htakes

theorem uses_policy {before after : Rotator ρ} (huses : Rotator.Uses arith rng before after) :
    after.ratings.quarantine = before.ratings.quarantine := by
  obtain ⟨ops, rfl⟩ := huses
  exact (Ratings.applyAll_cell arith rng (fun _ _ _ => True) ops before.ratings
    (fun _ _ _ _ _ => trivial) fun _ _ _ => trivial).1

theorem uses_indexOf {before after : Rotator ρ} (huses : Rotator.Uses arith rng before after)
    (proxy : ProxyConfig) : after.indexOf proxy = before.indexOf proxy := by
  rw [Rotator.indexOf, Rotator.indexOf, huses.proxies]

theorem outcome_use (world : World ρ) (probe : ChainProbe)
    (attempt : Option (Except ChainError Unit)) :
    world.outcome arith probe attempt = world.rotators probe.level.rotator ∨
      ∃ op, takes op = false ∧
        world.outcome arith probe attempt =
          (world.rotators probe.level.rotator).use arith rng [op] := by
  unfold World.outcome
  dsimp only
  split
  · exact .inl rfl
  · split
    · unfold Rotator.recordSuccess
      split
      · exact .inl rfl
      · rename_i i hindex
        exact .inr ⟨.success i world.now, rfl, rfl⟩
    · split
      · unfold Rotator.recordHardFailure
        split
        · exact .inl rfl
        · rename_i i hindex
          exact .inr ⟨.hardFailure i world.now, rfl, rfl⟩
      · exact .inl rfl
    · exact .inl rfl

/-! What a step leaves as it is. -/

/-- Rotators are only used, and nothing goes back. -/
structure Moved (arith : FloatArith) (rng : Rng ρ) (before after : World ρ) : Prop where
  now : before.now ≤ after.now
  uses : ∀ r, Rotator.Uses arith rng (before.rotators r) (after.rotators r)
  grants : ∀ r i, before.grants r i ≤ after.grants r i

theorem Moved.probes (world : World ρ) (probes : List ChainProbe) :
    Moved arith rng world { world with probes } :=
  ⟨le_refl _, fun _ => .refl _, fun _ _ => le_refl _⟩

theorem put_rotators (world : World ρ) (r : RotatorId) (rotator : Rotator ρ) (s : RotatorId) :
    (world.put r rotator).rotators s = if s = r then rotator else world.rotators s :=
  Function.update_apply world.rotators r rotator s

theorem put_uses {r : RotatorId} {rotator : Rotator ρ}
    (huses : Rotator.Uses arith rng (world.rotators r) rotator) (s : RotatorId) :
    Rotator.Uses arith rng (world.rotators s) ((world.put r rotator).rotators s) := by
  rw [put_rotators]
  split
  · rename_i hsame
    exact hsame ▸ huses
  · exact .refl _

theorem Moved.put {r : RotatorId} {rotator : Rotator ρ}
    (huses : Rotator.Uses arith rng (world.rotators r) rotator) :
    Moved arith rng world (world.put r rotator) :=
  ⟨le_refl _, put_uses huses, fun _ _ => le_refl _⟩

theorem outcome_uses (world : World ρ) (probe : ChainProbe)
    (attempt : Option (Except ChainError Unit)) :
    Rotator.Uses arith rng (world.rotators probe.level.rotator)
      (world.outcome arith probe attempt) := by
  obtain hsame | ⟨op, _, huse⟩ : _ ∨ ∃ op, takes op = false ∧
      world.outcome arith probe attempt =
        (world.rotators probe.level.rotator).use arith rng [op] := outcome_use world probe attempt
  · rw [hsame]
    exact .refl _
  · exact ⟨[op], huse⟩

theorem dial_moved (k : Nat) (probe : ChainProbe) (nodes : List ProxyConfig) :
    Moved arith rng world (world.dial setup k probe nodes) := by
  unfold World.dial
  split
  · exact Moved.probes world _
  · exact Moved.probes world _

theorem pick_moved (k : Nat) (probe : ChainProbe) (nodes : List ProxyConfig)
    (levels : List GateLevel) :
    Moved arith rng world (world.pick arith rng setup k probe nodes levels) := by
  cases levels with
  | nil => exact dial_moved k probe nodes
  | cons level levels =>
      rw [World.pick]
      split
      · exact dial_moved k probe nodes
      · split
        · have hput : Moved arith rng world (world.put level.rotator
              ((world.rotators level.rotator).pickOrder arith rng world.now).2) :=
            Moved.put (Rotator.pickOrder_uses arith rng _ world.now)
          dsimp only
          split
          · exact ⟨hput.now, hput.uses, hput.grants⟩
          · exact ⟨hput.now, hput.uses, hput.grants⟩
        · exact Moved.probes world _

theorem claim_moved (level : GateLevel) (claimed : Instant) :
    Moved arith rng world (world.claim setup level claimed) := by
  have huses : Rotator.Uses arith rng (world.rotators level.rotator)
      { world.rotators level.rotator with
        ratings := ((world.rotators level.rotator).ratings.takeProbes world.now).2 } :=
    ⟨[.takeProbes world.now], rfl⟩
  refine ⟨le_refl _, put_uses huses, fun r i => ?_⟩
  unfold World.claim
  dsimp only
  split
  · exact Nat.le_succ _
  · exact le_refl _

theorem step_moved {event : ProbeEvent}
    (hstep : world.step arith rng setup event = some next) : Moved arith rng world next := by
  cases event with
  | later now =>
      rw [World.step] at hstep
      split at hstep
      · rename_i hle
        cases hstep
        exact ⟨hle, fun _ => .refl _, fun _ _ => le_refl _⟩
      · cases hstep
  | report r op =>
      rw [World.step] at hstep
      split at hstep
      · cases hstep
        exact Moved.put ⟨[op], rfl⟩
      · cases hstep
  | claim level claimed =>
      rw [World.step] at hstep
      split at hstep
      · cases hstep
        exact claim_moved level claimed
      · cases hstep
  | pick k =>
      obtain ⟨probe, _, hstep⟩ := Option.bind_eq_some_iff.mp hstep
      split at hstep
      · cases hstep
        exact pick_moved k probe _ _
      · cases hstep
  | atCapacity k =>
      obtain ⟨probe, _, hstep⟩ := Option.bind_eq_some_iff.mp hstep
      split at hstep
      · cases hstep
      · cases hstep
        exact Moved.probes world _
  | settle k attempt =>
      obtain ⟨probe, _, hstep⟩ := Option.bind_eq_some_iff.mp hstep
      split at hstep
      · cases hstep
      · split at hstep
        · cases hstep
          have huses : Rotator.Uses arith rng (world.rotators probe.level.rotator)
              (world.outcome arith probe attempt) := outcome_uses world probe attempt
          have hput := Moved.put huses
          exact ⟨hput.now, hput.uses, hput.grants⟩
        · cases hstep

/-! The probes under way. -/

/-- A dialed probe ends before its fence, and the fence before the lease of its cell. -/
structure Sound (setup : Setup) (world : World ρ) (probe : ChainProbe) : Prop where
  level : probe.level ∈ setup.probed
  enabled : (world.rotators probe.level.rotator).ratings.quarantine.enabled = true
  fence : probe.fence = probe.claimed + setup.lease
  leaseEnd : probe.fence ≤ probe.leaseEnd
  grant : ∀ i, (world.rotators probe.level.rotator).indexOf probe.proxy = some i →
    probe.grant ≤ world.grants probe.level.rotator i
  picking : ∀ levels nodes, probe.phase = .picking levels nodes →
    levels.length + nodes.length ≤ setup.gates.levels.length
  dialing : ∀ chain deadline, probe.phase = .dialing chain deadline → deadline < probe.fence

structure Configured (setup : Setup) (world : World ρ) : Prop where
  lease : ∀ level ∈ setup.probed,
    (world.rotators level.rotator).ratings.quarantine.probeLease = setup.lease
  distinct : ∀ level ∈ setup.probed,
    ((world.rotators level.rotator).proxies.map (·.node)).Nodup

structure Inv (setup : Setup) (world : World ρ) : Prop where
  configured : Configured setup world
  sound : ∀ probe ∈ world.probes, Sound setup world probe

theorem Configured.moved (hconfigured : Configured setup world)
    (hmoved : Moved arith rng world next) : Configured setup next := by
  constructor
  · intro level hlevel
    rw [uses_policy (hmoved.uses level.rotator)]
    exact hconfigured.lease level hlevel
  · intro level hlevel
    rw [(hmoved.uses level.rotator).proxies]
    exact hconfigured.distinct level hlevel

theorem Sound.moved {probe : ChainProbe} (hsound : Sound setup world probe)
    (hmoved : Moved arith rng world next) : Sound setup next probe where
  level := hsound.level
  enabled := by
    rw [uses_policy (hmoved.uses probe.level.rotator)]
    exact hsound.enabled
  fence := hsound.fence
  leaseEnd := hsound.leaseEnd
  grant := by
    intro i hindex
    rw [uses_indexOf (hmoved.uses probe.level.rotator)] at hindex
    exact (hsound.grant i hindex).trans (hmoved.grants _ i)
  picking := hsound.picking
  dialing := hsound.dialing

theorem Sound.phase {probe : ChainProbe} (hsound : Sound setup world probe) {phase : Phase}
    (hpicking : ∀ levels nodes, phase = .picking levels nodes →
      levels.length + nodes.length ≤ setup.gates.levels.length)
    (hdialing : ∀ chain deadline, phase = .dialing chain deadline → deadline < probe.fence) :
    Sound setup world { probe with phase } :=
  ⟨hsound.level, hsound.enabled, hsound.fence, hsound.leaseEnd, hsound.grant, hpicking, hdialing⟩

theorem chain_length {nodes : List ProxyConfig} {chain : ProxyConfig}
    (hchain : ProxyConfig.chain nodes = some chain) : chain.nodes.length = nodes.length := by
  have hnodes := ProxyConfig.nodes_chain nodes
  rw [hchain] at hnodes
  simpa using congrArg List.length hnodes

theorem Sound.dialed {probe : ChainProbe} (hsound : Sound setup world probe)
    {nodes : List ProxyConfig} (hcount : nodes.length ≤ setup.gates.levels.length)
    {chain : ProxyConfig} (hchain : ProxyConfig.chain nodes = some chain) :
    Sound setup world
      { probe with phase := .dialing chain (probe.claimed + setup.budget chain) } := by
  refine hsound.phase nofun fun other deadline heq => ?_
  cases heq
  have hless := probeDeadline_lt setup.connectTimeout setup.handshakeTimeout
    ((chain_length hchain).trans_le hcount)
  rw [hsound.fence]
  exact Nat.add_lt_add_left hless probe.claimed

theorem Inv.moved {after : World ρ} (hinv : Inv setup world)
    (hmoved : Moved arith rng world after)
    (hprobes : ∀ probe ∈ after.probes, probe ∈ world.probes ∨ Sound setup after probe) :
    Inv setup after := by
  refine ⟨hinv.configured.moved hmoved, fun probe hprobe => ?_⟩
  obtain hold | hsound := hprobes probe hprobe
  · exact (hinv.sound probe hold).moved hmoved
  · exact hsound

theorem Inv.drop (hinv : Inv setup world) (k : Nat) : Inv setup (world.drop k) := by
  refine ⟨⟨hinv.configured.lease, hinv.configured.distinct⟩, fun probe hprobe => ?_⟩
  obtain ⟨hlevel, henabled, hfence, hend, hgrant, hpicking, hdialing⟩ :=
    hinv.sound probe (List.mem_of_mem_eraseIdx hprobe)
  exact ⟨hlevel, henabled, hfence, hend, hgrant, hpicking, hdialing⟩

theorem Inv.advance (hinv : Inv setup world) {k : Nat} {probe : ChainProbe} {phase : Phase}
    (hsound : Sound setup world { probe with phase }) :
    Inv setup (world.advance k probe phase) := by
  refine ⟨⟨hinv.configured.lease, hinv.configured.distinct⟩, fun other hother => ?_⟩
  have hall : Sound setup world other := by
    obtain hold | rfl := List.mem_or_eq_of_mem_set hother
    · exact hinv.sound other hold
    · exact hsound
  exact ⟨hall.level, hall.enabled, hall.fence, hall.leaseEnd, hall.grant, hall.picking,
    hall.dialing⟩

theorem dial_inv {k : Nat} {probe : ChainProbe} {nodes : List ProxyConfig}
    (hinv : Inv setup world) (hsound : Sound setup world probe)
    (hcount : nodes.length ≤ setup.gates.levels.length) :
    Inv setup (world.dial setup k probe nodes) := by
  unfold World.dial
  split
  · exact hinv.drop k
  · rename_i chain hchain
    exact hinv.advance (hsound.dialed hcount hchain)

theorem pick_inv {k : Nat} {probe : ChainProbe} {nodes : List ProxyConfig}
    {levels : List GateLevel} (hinv : Inv setup world) (hsound : Sound setup world probe)
    (hcount : levels.length + nodes.length ≤ setup.gates.levels.length) :
    Inv setup (world.pick arith rng setup k probe nodes levels) := by
  cases levels with
  | nil => exact dial_inv hinv hsound (by simpa using hcount)
  | cons level levels =>
      rw [List.length_cons] at hcount
      rw [World.pick]
      split
      · exact dial_inv hinv hsound (by omega)
      · split
        · have hmoved : Moved arith rng world (world.put level.rotator
              ((world.rotators level.rotator).pickOrder arith rng world.now).2) :=
            Moved.put (Rotator.pickOrder_uses arith rng _ world.now)
          have hput := hinv.moved hmoved fun _ hprobe => .inl hprobe
          dsimp only
          split
          · exact hput.drop k
          · refine hput.advance ((hsound.moved hmoved).phase (fun levels' nodes' heq => ?_) nofun)
            cases heq
            rw [List.length_append, List.length_singleton]
            omega
        · refine hinv.advance (hsound.phase (fun levels' nodes' heq => ?_) nofun)
          cases heq
          omega

/-! Claims. -/

theorem takeProbes_at {ratings : Ratings ρ} {now : Instant} {i : Nat}
    (henabled : ratings.quarantine.enabled = true) :
    (ratings.takeProbes now).2.inner.quarantine[i]? =
      ratings.inner.quarantine[i]?.map fun cell => (cell.tryLease now ratings.quarantine).2 := by
  rw [(Ratings.takeProbes_cell ratings now i).2]
  exact Option.map_congr fun cell _ => if_pos henabled

theorem checkedAdd_fits {now : Instant} {length : Duration} (hfits : now + length ≤ Instant.max) :
    Instant.checkedAdd now length = some (now + length) := if_pos hfits

section

variable {level : GateLevel} {claimed : Instant}

theorem granted_cell {ratings : Ratings ρ} {now : Instant} {i : Nat}
    (hmem : i ∈ (ratings.takeProbes now).1)
    (hfits : now + ratings.quarantine.probeLease ≤ Instant.max) :
    ∃ cell, (ratings.takeProbes now).2.inner.quarantine[i]? = some cell ∧
      cell.leaseUntil = some (now + ratings.quarantine.probeLease) := by
  obtain ⟨henabled, cell, hcell, hgranted⟩ := Ratings.mem_takeProbes.mp hmem
  refine ⟨(cell.tryLease now ratings.quarantine).2, ?_, ?_⟩
  · rw [takeProbes_at henabled, hcell, Option.map_some]
  · rw [Cell.tryLease_lease hgranted, checkedAdd_fits hfits, Option.getD_some]

theorem mem_claim {probe : ChainProbe}
    (hprobe : probe ∈ (world.claim setup level claimed).probes) :
    probe ∈ world.probes ∨
      ∃ i ∈ ((world.rotators level.rotator).ratings.takeProbes world.now).1, ∃ proxy,
        (world.rotators level.rotator).proxies[i]? = some proxy ∧
        probe = ⟨level, proxy, claimed, claimed + setup.lease, .picking setup.gates.levels [],
          world.grants level.rotator i + 1,
          ((((world.rotators level.rotator).ratings.takeProbes world.now).2.inner.quarantine[i]?).bind
            Cell.leaseUntil).getD world.now⟩ := by
  obtain hold | hnew := List.mem_append.mp hprobe
  · exact .inl hold
  · obtain ⟨i, hi, hspawned⟩ := List.mem_filterMap.mp hnew
    obtain ⟨proxy, hproxy, rfl⟩ := Option.map_eq_some_iff.mp hspawned
    exact .inr ⟨i, hi, proxy, hproxy, rfl⟩

theorem claim_grants (r : RotatorId) (i : Nat) :
    (world.claim setup level claimed).grants r i =
      if r = level.rotator ∧
          i ∈ ((world.rotators level.rotator).ratings.takeProbes world.now).1 then
        world.grants r i + 1
      else world.grants r i := rfl

theorem indexOf_slot {rotator : Rotator ρ} (hdistinct : (rotator.proxies.map (·.node)).Nodup)
    {i j : Nat} {proxy : ProxyConfig} (hproxy : rotator.proxies[i]? = some proxy)
    (hindex : rotator.indexOf proxy = some j) : j = i := by
  have hself := (Rotator.indexOf_eq hdistinct hproxy).mpr rfl
  exact Option.some.inj (hindex.symm.trans hself)

theorem claim_inv (hinv : Inv setup world) (hlevel : level ∈ setup.probed)
    (hclaimed : claimed ≤ world.now) (hfits : world.now + setup.lease ≤ Instant.max)
    (arith : FloatArith) (rng : Rng ρ) :
    Inv setup (world.claim setup level claimed) := by
  have hmoved : Moved arith rng world (world.claim setup level claimed) :=
    claim_moved level claimed
  refine hinv.moved hmoved fun probe hprobe => (mem_claim hprobe).imp_right ?_
  rintro ⟨i, hi, proxy, hproxy, rfl⟩
  have hlease := hinv.configured.lease level hlevel
  rw [← hlease] at hfits
  obtain ⟨cell, hcell, hend⟩ := granted_cell hi hfits
  refine ⟨hlevel, ?_, rfl, ?_, fun j hindex => ?_, fun levels nodes heq => ?_, nofun⟩
  · rw [uses_policy (hmoved.uses level.rotator)]
    exact (Ratings.mem_takeProbes.mp hi).1
  · rw [hcell, Option.bind_some, hend, Option.getD_some, hlease]
    exact Nat.add_le_add_right hclaimed setup.lease
  · rw [uses_indexOf (hmoved.uses level.rotator)] at hindex
    obtain rfl := indexOf_slot (hinv.configured.distinct level hlevel) hproxy hindex
    rw [claim_grants, if_pos ⟨rfl, hi⟩]
  · cases heq
    exact le_refl _

end

theorem step_inv {event : ProbeEvent} (hstep : world.step arith rng setup event = some next)
    (hinv : Inv setup world) : Inv setup next := by
  have hmoved := step_moved hstep
  cases event with
  | later now =>
      rw [World.step] at hstep
      split at hstep
      · cases hstep
        exact hinv.moved hmoved fun _ hprobe => .inl hprobe
      · cases hstep
  | report r op =>
      rw [World.step] at hstep
      split at hstep
      · cases hstep
        exact hinv.moved hmoved fun _ hprobe => .inl hprobe
      · cases hstep
  | claim level claimed =>
      rw [World.step] at hstep
      split at hstep
      · rename_i hallowed
        cases hstep
        exact claim_inv hinv hallowed.1 hallowed.2.1 hallowed.2.2 arith rng
      · cases hstep
  | pick k =>
      obtain ⟨probe, hprobe, hstep⟩ := Option.bind_eq_some_iff.mp hstep
      have hsound := hinv.sound probe (List.mem_of_getElem? hprobe)
      split at hstep
      · rename_i levels nodes hphase
        cases hstep
        exact pick_inv hinv hsound (hsound.picking levels nodes hphase)
      · cases hstep
  | atCapacity k =>
      obtain ⟨probe, _, hstep⟩ := Option.bind_eq_some_iff.mp hstep
      split at hstep
      · cases hstep
      · cases hstep
        exact hinv.drop k
  | settle k attempt =>
      obtain ⟨probe, _, hstep⟩ := Option.bind_eq_some_iff.mp hstep
      split at hstep
      · cases hstep
      · split at hstep
        · cases hstep
          exact hinv.moved hmoved fun _ hprobe => .inl (List.mem_of_mem_eraseIdx hprobe)
        · cases hstep

/-! Whose lease it is. -/

/-- Up to its fence a probe has the newest lease of its cell, which nobody else gets. -/
def Fresh (world : World ρ) (probe : ChainProbe) : Prop :=
  ∀ i, (world.rotators probe.level.rotator).indexOf probe.proxy = some i →
    world.now < probe.fence →
      probe.grant = world.grants probe.level.rotator i ∧
        Held (world.rotators probe.level.rotator) i probe.fence

/-- No lease is granted to an inner upstream in this step. -/
structure Quiet (arith : FloatArith) (rng : Rng ρ) (setup : Setup) (before after : World ρ) :
    Prop where
  now : before.now ≤ after.now
  grants : after.grants = before.grants
  rotators : ∀ level ∈ setup.probed, after.rotators level.rotator = before.rotators level.rotator ∨
    ∃ op, takes op = false ∧
      after.rotators level.rotator = (before.rotators level.rotator).use arith rng [op]
  probes : ∀ probe ∈ after.probes, ∃ phase, ∃ old ∈ before.probes, probe = { old with phase }

theorem Fresh.quiet {probe : ChainProbe} (hfresh : Fresh world probe)
    (hlevel : probe.level ∈ setup.probed) (hquiet : Quiet arith rng setup world next)
    (phase : Phase) : Fresh next { probe with phase } := by
  intro i hindex hbefore
  dsimp only at hindex hbefore ⊢
  have hbefore' := lt_of_le_of_lt hquiet.now hbefore
  rw [hquiet.grants]
  obtain hsame | ⟨op, htakes, huse⟩ := hquiet.rotators probe.level hlevel
  · rw [hsame] at hindex ⊢
    exact hfresh i hindex hbefore'
  · rw [huse] at hindex ⊢
    obtain ⟨hgrant, hheld⟩ := hfresh i hindex hbefore'
    exact ⟨hgrant, hheld.use htakes⟩

theorem Quiet.probes_changed {probes : List ChainProbe}
    (hprobes : ∀ probe ∈ probes, ∃ phase, ∃ old ∈ world.probes, probe = { old with phase }) :
    Quiet arith rng setup world { world with probes } :=
  ⟨le_refl _, rfl, fun _ _ => .inl rfl, hprobes⟩

theorem same_phase {probe : ChainProbe} (hprobe : probe ∈ world.probes) :
    ∃ phase, ∃ old ∈ world.probes, probe = { old with phase } :=
  ⟨probe.phase, probe, hprobe, rfl⟩

theorem drop_changed (k : Nat) {probe : ChainProbe} (hprobe : probe ∈ (world.drop k).probes) :
    ∃ phase, ∃ old ∈ world.probes, probe = { old with phase } :=
  same_phase (List.mem_of_mem_eraseIdx hprobe)

theorem advance_changed {k : Nat} {probe other : ChainProbe} {phase : Phase}
    (hprobe : probe ∈ world.probes) (hother : other ∈ (world.advance k probe phase).probes) :
    ∃ phase, ∃ old ∈ world.probes, other = { old with phase } := by
  obtain hold | rfl := List.mem_or_eq_of_mem_set hother
  · exact same_phase hold
  · exact ⟨phase, probe, hprobe, rfl⟩

theorem put_quiet {r : RotatorId} {op : Op} {probes : List ChainProbe}
    (htakes : takes op = true → ∀ level ∈ setup.probed, level.rotator ≠ r)
    (hprobes : ∀ probe ∈ probes, ∃ phase, ∃ old ∈ world.probes, probe = { old with phase }) :
    Quiet arith rng setup world
      { world.put r ((world.rotators r).use arith rng [op]) with probes } := by
  refine ⟨le_refl _, rfl, fun level hlevel => ?_, hprobes⟩
  dsimp only
  rw [put_rotators]
  split
  · rename_i hsame
    cases htake : takes op with
    | true => exact absurd hsame (htakes htake level hlevel)
    | false => exact .inr ⟨op, htake, by rw [hsame]⟩
  · exact .inl rfl

theorem dial_quiet {k : Nat} {probe : ChainProbe} (hprobe : probe ∈ world.probes)
    (nodes : List ProxyConfig) :
    Quiet arith rng setup world (world.dial setup k probe nodes) := by
  unfold World.dial
  split
  · exact Quiet.probes_changed fun _ hother => drop_changed k hother
  · exact Quiet.probes_changed fun _ hother => advance_changed hprobe hother

theorem pick_quiet {k : Nat} {probe : ChainProbe} (hprobe : probe ∈ world.probes)
    (nodes : List ProxyConfig) (levels : List GateLevel) :
    Quiet arith rng setup world (world.pick arith rng setup k probe nodes levels) := by
  cases levels with
  | nil => exact dial_quiet hprobe nodes
  | cons level levels =>
      rw [World.pick]
      split
      · exact dial_quiet hprobe nodes
      · have hkeeps : takes (.pickOrder world.now) = true →
            ∀ other ∈ setup.probed, other.rotator ≠ level.rotator := nofun
        split
        · dsimp only
          split
          · exact put_quiet hkeeps fun _ hother => drop_changed k hother
          · exact put_quiet hkeeps fun _ hother => advance_changed hprobe hother
        · exact Quiet.probes_changed fun _ hother => advance_changed hprobe hother

theorem settle_quiet (k : Nat) (probe : ChainProbe) (attempt : Option (Except ChainError Unit)) :
    Quiet arith rng setup world (world.settle arith k probe attempt) := by
  have hdrop : ∀ other ∈ world.probes.eraseIdx k, ∃ phase, ∃ old ∈ world.probes,
      other = { old with phase } := fun _ hother => drop_changed k hother
  unfold World.settle
  obtain hsame | ⟨op, htakes, huse⟩ : _ ∨ ∃ op, takes op = false ∧
      world.outcome arith probe attempt =
        (world.rotators probe.level.rotator).use arith rng [op] := outcome_use world probe attempt
  · refine ⟨le_refl _, rfl, fun level _ => .inl ?_, hdrop⟩
    show (world.put _ _).rotators _ = _
    rw [put_rotators, hsame]
    split
    · rename_i heq
      rw [heq]
    · rfl
  · rw [huse]
    exact put_quiet (by simp [htakes]) hdrop

theorem step_quiet {event : ProbeEvent} (hstep : world.step arith rng setup event = some next)
    (hother : ∀ level claimed, event ≠ .claim level claimed) :
    Quiet arith rng setup world next := by
  cases event with
  | later now =>
      rw [World.step] at hstep
      split at hstep
      · rename_i hle
        cases hstep
        exact ⟨hle, rfl, fun _ _ => .inl rfl, fun _ hprobe => same_phase hprobe⟩
      · cases hstep
  | report r op =>
      rw [World.step] at hstep
      split at hstep
      · rename_i hallowed
        cases hstep
        exact put_quiet hallowed.2 fun _ hprobe => same_phase hprobe
      · cases hstep
  | claim level claimed => exact absurd rfl (hother level claimed)
  | pick k =>
      obtain ⟨probe, hprobe, hstep⟩ := Option.bind_eq_some_iff.mp hstep
      split at hstep
      · cases hstep
        exact pick_quiet (List.mem_of_getElem? hprobe) _ _
      · cases hstep
  | atCapacity k =>
      obtain ⟨probe, _, hstep⟩ := Option.bind_eq_some_iff.mp hstep
      split at hstep
      · cases hstep
      · cases hstep
        exact Quiet.probes_changed fun _ hother => drop_changed k hother
  | settle k attempt =>
      obtain ⟨probe, _, hstep⟩ := Option.bind_eq_some_iff.mp hstep
      split at hstep
      · cases hstep
      · split at hstep
        · cases hstep
          exact settle_quiet k probe attempt
        · cases hstep

/-- The upstream of a probe stands on probation, and the lease of its cell has been cleared. -/
def World.cleared (world : World ρ) (probe : ChainProbe) : Bool :=
  ((world.rotators probe.level.rotator).indexOf probe.proxy).any fun i =>
    (world.rotators probe.level.rotator).ratings.inner.quarantine[i]?.any fun cell =>
      cell.state world.now == .probation && cell.leaseUntil.isNone

/-- Where probes are claimed, no probe that is still before its fence has lost its lease. -/
def World.calm (world : World ρ) : ProbeEvent → Bool
  | .claim level _ => world.probes.all fun probe =>
      probe.level.rotator != level.rotator || decide (probe.fence ≤ world.now) ||
        !world.cleared probe
  | _ => true

theorem not_leased {probe : ChainProbe} (hfresh : Fresh world probe)
    (hbefore : world.now < probe.fence) (hcleared : world.cleared probe = false) {i : Nat}
    (hindex : (world.rotators probe.level.rotator).indexOf probe.proxy = some i) :
    i ∉ ((world.rotators probe.level.rotator).ratings.takeProbes world.now).1 := by
  intro hmem
  obtain ⟨_, cell, hcell, hgranted⟩ := Ratings.mem_takeProbes.mp hmem
  obtain ⟨hstate, hrunning⟩ := Cell.tryLease_granted hgranted
  cases hlease : cell.leaseUntil with
  | none => simp [World.cleared, hindex, hcell, hstate, hlease] at hcleared
  | some lease =>
      have hend := (hfresh i hindex hbefore).2 cell hcell lease hlease
      exact absurd (hrunning lease hlease) (Nat.not_le.mpr (lt_of_lt_of_le hbefore hend))

theorem takeProbes_held {rotator : Rotator ρ} {now fence : Instant} {i : Nat}
    (hnot : i ∉ (rotator.ratings.takeProbes now).1) (hheld : Held rotator i fence) :
    Held (rotator.use arith rng [.takeProbes now]) i fence := by
  intro cell hcell
  rw [use_cell] at hcell
  obtain ⟨old, hold, rfl⟩ := Option.map_eq_some_iff.mp hcell
  simp only [Op.onCell]
  split
  · rename_i henabled
    have hrefused : (old.tryLease now rotator.ratings.quarantine).1 = false := by
      cases hgranted : (old.tryLease now rotator.ratings.quarantine).1 with
      | false => rfl
      | true => exact absurd (Ratings.mem_takeProbes.mpr ⟨henabled, old, hold, hgranted⟩) hnot
    rw [Cell.tryLease_refused hrefused]
    exact hheld old hold
  · exact hheld old hold

theorem claim_fresh {level : GateLevel} {claimed : Instant} (hinv : Inv setup world)
    (hlevel : level ∈ setup.probed) (hclaimed : claimed ≤ world.now)
    (hfits : world.now + setup.lease ≤ Instant.max)
    (hcalm : world.calm (.claim level claimed) = true)
    (hfresh : ∀ probe ∈ world.probes, Fresh world probe) (arith : FloatArith) (rng : Rng ρ) :
    ∀ probe ∈ (world.claim setup level claimed).probes,
      Fresh (world.claim setup level claimed) probe := by
  have hrotator : (world.claim setup level claimed).rotators level.rotator =
      (world.rotators level.rotator).use arith rng [.takeProbes world.now] :=
    (put_rotators world level.rotator _ _).trans (if_pos rfl)
  intro probe hprobe i hindex hbefore
  rw [claim_grants]
  obtain hold | ⟨j, hj, proxy, hproxy, rfl⟩ := mem_claim hprobe
  · by_cases hsame : probe.level.rotator = level.rotator
    · rw [hsame, hrotator] at hindex
      rw [hsame, hrotator]
      have hindex' : (world.rotators probe.level.rotator).indexOf probe.proxy = some i := by
        rw [hsame]
        exact hindex
      obtain ⟨hgrant, hheld⟩ := hfresh probe hold i hindex' hbefore
      have hkept := List.all_eq_true.mp hcalm probe hold
      have hcleared : world.cleared probe = false := by
        have hlt : ¬ probe.fence ≤ world.now := Nat.not_le.mpr hbefore
        simpa [hsame, hlt] using hkept
      have hnot := not_leased (hfresh probe hold) hbefore hcleared hindex'
      rw [hsame] at hnot hgrant hheld
      rw [if_neg fun hboth => hnot hboth.2]
      exact ⟨hgrant, takeProbes_held hnot hheld⟩
    · have hother : (world.claim setup level claimed).rotators probe.level.rotator =
          world.rotators probe.level.rotator :=
        (put_rotators world level.rotator _ _).trans (if_neg hsame)
      rw [hother] at hindex ⊢
      rw [if_neg fun hboth => hsame hboth.1]
      exact hfresh probe hold i hindex hbefore
  · dsimp only at hindex hbefore ⊢
    rw [hrotator] at hindex ⊢
    obtain rfl := indexOf_slot (hinv.configured.distinct level hlevel) hproxy hindex
    have hlease := hinv.configured.lease level hlevel
    rw [← hlease] at hfits
    obtain ⟨cell, hcell, hend⟩ := granted_cell hj hfits
    refine ⟨(if_pos ⟨rfl, hj⟩).symm, fun other hother lease hother' => ?_⟩
    have hat : (world.rotators level.rotator |>.use arith rng
        [.takeProbes world.now]).ratings.inner.quarantine[i]? = some cell := hcell
    rw [hat] at hother
    obtain rfl := Option.some.inj hother
    rw [hend] at hother'
    obtain rfl := Option.some.inj hother'
    rw [hlease]
    exact Nat.add_le_add_right hclaimed setup.lease

theorem step_fresh {event : ProbeEvent} (hinv : Inv setup world)
    (hfresh : ∀ probe ∈ world.probes, Fresh world probe)
    (hstep : world.step arith rng setup event = some next) (hcalm : world.calm event = true) :
    ∀ probe ∈ next.probes, Fresh next probe := by
  have hquiet : Quiet arith rng setup world next → ∀ probe ∈ next.probes, Fresh next probe := by
    intro hquiet probe hprobe
    obtain ⟨phase, old, hold, rfl⟩ := hquiet.probes probe hprobe
    exact (hfresh old hold).quiet (hinv.sound old hold).level hquiet phase
  cases event with
  | claim level claimed =>
      rw [World.step] at hstep
      split at hstep
      · rename_i hallowed
        cases hstep
        exact claim_fresh hinv hallowed.1 hallowed.2.1 hallowed.2.2 hcalm hfresh arith rng
      · cases hstep
  | later now => exact hquiet (step_quiet hstep nofun)
  | report r op => exact hquiet (step_quiet hstep nofun)
  | pick k => exact hquiet (step_quiet hstep nofun)
  | atCapacity k => exact hquiet (step_quiet hstep nofun)
  | settle k attempt => exact hquiet (step_quiet hstep nofun)

/-! What a result changes. -/

/-- The tested node answered, or refused the last prefix node. -/
def Decisive (attempt : Option (Except ChainError Unit)) : Prop :=
  attempt = some (.ok ()) ∨ ∃ protocol code response,
    attempt = some (.error ⟨.target, .proxyRejected protocol code response⟩)

theorem classify_hard {error : ChainError}
    (hhard : classifyProbeError error.stage error.error = .hardFailure) :
    ∃ protocol code response, error = ⟨.target, .proxyRejected protocol code response⟩ := by
  obtain ⟨stage, cause⟩ := error
  unfold classifyProbeError at hhard
  split at hhard
  · rename_i hstage hcause
    cases hstage
    cases hcause
    exact ⟨_, _, _, rfl⟩
  · cases hhard

theorem recordSuccess_slot {rotator : Rotator ρ} {proxy : ProxyConfig} {now : Instant} {j : Nat}
    (hchanged : (rotator.recordSuccess arith proxy now).slot? j ≠ rotator.slot? j) :
    rotator.indexOf proxy = some j := by
  rw [(Rotator.recordSuccess_spec arith rotator proxy now).2 j] at hchanged
  split at hchanged
  · rename_i hindex
    exact hindex
  · exact absurd rfl hchanged

theorem outcome_changed {probe : ChainProbe} {attempt : Option (Except ChainError Unit)} {j : Nat}
    (hchanged : (world.outcome arith probe attempt).slot? j ≠
      (world.rotators probe.level.rotator).slot? j) :
    world.now < probe.fence ∧ Decisive attempt ∧
      (world.rotators probe.level.rotator).indexOf probe.proxy = some j := by
  unfold World.outcome at hchanged
  dsimp only at hchanged
  split at hchanged
  · exact absurd rfl hchanged
  · rename_i hbefore
    refine ⟨Nat.not_le.mp hbefore, ?_⟩
    split at hchanged
    · exact ⟨.inl rfl, recordSuccess_slot hchanged⟩
    · rename_i error
      split at hchanged
      · rename_i hhard
        obtain ⟨protocol, code, response, rfl⟩ := classify_hard hhard
        refine ⟨.inr ⟨protocol, code, response, rfl⟩, ?_⟩
        rw [(Rotator.recordHardFailure_spec arith _ probe.proxy world.now).2 j] at hchanged
        unfold Rotator.struck at hchanged
        split at hchanged
        · rename_i hindex
          exact hindex
        · exact absurd rfl hchanged
      · exact absurd rfl hchanged
    · exact absurd rfl hchanged

theorem settle_step {k : Nat} {probe : ChainProbe} {attempt : Option (Except ChainError Unit)}
    (hprobe : world.probes[k]? = some probe)
    (hstep : world.step arith rng setup (.settle k attempt) = some next) :
    next = world.settle arith k probe attempt := by
  rw [World.step, hprobe, Option.bind_some] at hstep
  split at hstep
  · cases hstep
  · split at hstep
    · exact (Option.some.inj hstep).symm
    · cases hstep

theorem settle_changed {k : Nat} {probe : ChainProbe}
    {attempt : Option (Except ChainError Unit)} {r : RotatorId} {j : Nat}
    (hchanged : ((world.settle arith k probe attempt).rotators r).slot? j ≠
      (world.rotators r).slot? j) :
    r = probe.level.rotator ∧ world.now < probe.fence ∧ Decisive attempt ∧
      (world.rotators r).indexOf probe.proxy = some j := by
  have hrotator : (world.settle arith k probe attempt).rotators r =
      if r = probe.level.rotator then world.outcome arith probe attempt else world.rotators r :=
    put_rotators world probe.level.rotator _ r
  rw [hrotator] at hchanged
  split at hchanged
  · rename_i hsame
    subst hsame
    exact ⟨rfl, outcome_changed hchanged⟩
  · exact absurd rfl hchanged

theorem success_clears {probe : ChainProbe} {i : Nat} {cell : Cell}
    (hbefore : world.now < probe.fence)
    (hindex : (world.rotators probe.level.rotator).indexOf probe.proxy = some i)
    (hcell : (world.rotators probe.level.rotator).ratings.inner.quarantine[i]? = some cell)
    (htripped : cell.untilAt ≠ none) :
    (world.outcome arith probe (some (.ok ()))).slot? i ≠
      (world.rotators probe.level.rotator).slot? i := by
  have houtcome : world.outcome arith probe (some (.ok ())) =
      { world.rotators probe.level.rotator with
        ratings := (world.rotators probe.level.rotator).ratings.onSuccess arith i world.now } := by
    unfold World.outcome Rotator.recordSuccess
    dsimp only
    rw [if_neg (Nat.not_le.mpr hbefore), hindex]
  have hafter : ((world.rotators probe.level.rotator).ratings.onSuccess arith i
      world.now).inner.quarantine[i]? = _ :=
    (Ratings.onSuccess_cell (world.rotators probe.level.rotator).ratings i world.now i).2
  rw [hcell, Option.map_some] at hafter
  have hfresh : Op.onCell (world.rotators probe.level.rotator).ratings.quarantine i
      (.success i world.now) cell = Cell.fresh := if_pos rfl
  rw [hfresh] at hafter
  obtain ⟨sand, hsand⟩ : ∃ sand,
      (world.rotators probe.level.rotator).ratings.inner.cells[i]? = some sand := by
    have hlt := (List.getElem?_eq_some_iff.mp hcell).1
    rw [Inner.sized] at hlt
    exact ⟨_, List.getElem?_eq_getElem hlt⟩
  rw [houtcome, Rotator.slot?_eq, Rotator.slot?_eq, hcell, hsand]
  dsimp only
  rw [hafter]
  intro heq
  cases hsand' : ((world.rotators probe.level.rotator).ratings.onSuccess arith i
      world.now).inner.cells[i]? with
  | none => simp [hsand'] at heq
  | some sand' =>
      simp only [hsand', Option.map_some, Option.bind_some, Option.some.injEq, Slot.mk.injEq] at heq
      exact htripped (heq.2 ▸ rfl)

/-- A claim that is not calm leaves behind a probe whose lease is not the newest, and whose success
would still count. -/
theorem stale_of_claim {level : GateLevel} {claimed : Instant} (hinv : Inv setup world)
    (hstep : world.step arith rng setup (.claim level claimed) = some next)
    (hcalm : world.calm (.claim level claimed) = false) :
    ∃ (k : Nat) (probe : ChainProbe) (j : Nat), next.probes[k]? = some probe ∧
      probe.grant < next.grants probe.level.rotator j ∧
      ∀ chain deadline, probe.phase = .dialing chain deadline →
        ∃ last, next.step arith rng setup (.settle k (some (.ok ()))) = some last ∧
          (last.rotators probe.level.rotator).slot? j ≠
            (next.rotators probe.level.rotator).slot? j := by
  rw [World.step] at hstep
  split at hstep
  · cases hstep
    obtain ⟨probe, hprobe, hlost⟩ := List.all_eq_false.mp hcalm
    obtain ⟨k, hk⟩ := List.mem_iff_getElem?.mp hprobe
    have hsame : probe.level.rotator = level.rotator := by
      by_contra hother
      exact hlost (by simp [hother])
    have hbefore : world.now < probe.fence := by
      by_contra hpast
      exact hlost (by simp [Nat.not_lt.mp hpast])
    have hcleared : world.cleared probe = true := by
      by_contra hheld
      exact hlost (by simp [hheld])
    obtain ⟨i, hindex, hany⟩ := (Option.any_eq_true _ _).mp hcleared
    obtain ⟨cell, hcell, hboth⟩ := (Option.any_eq_true _ _).mp hany
    rw [Bool.and_eq_true, beq_iff_eq] at hboth
    obtain ⟨hstate, hnone⟩ := hboth
    have hsound := hinv.sound probe hprobe
    have hgranted : (cell.tryLease world.now
        (world.rotators probe.level.rotator).ratings.quarantine).1 = true := by
      rw [Cell.tryLease, if_neg (by simp [hstate]), Option.isNone_iff_eq_none.mp hnone]
      rfl
    have hmem : i ∈ ((world.rotators level.rotator).ratings.takeProbes world.now).1 := by
      rw [← hsame]
      exact Ratings.mem_takeProbes.mpr ⟨hsound.enabled, cell, hcell, hgranted⟩
    have hrotator : (world.claim setup level claimed).rotators probe.level.rotator =
        (world.rotators probe.level.rotator).use arith rng [.takeProbes world.now] := by
      rw [hsame]
      exact (put_rotators world level.rotator _ _).trans (if_pos rfl)
    refine ⟨k, probe, i, ?_, ?_, fun chain deadline hphase => ?_⟩
    · exact (List.getElem?_append_left (List.getElem?_eq_some_iff.mp hk).1).trans hk
    · rw [claim_grants, if_pos ⟨hsame, hmem⟩]
      exact Nat.lt_succ_of_le (hsound.grant i hindex)
    · have hat : (world.claim setup level claimed).probes[k]? = some probe :=
        (List.getElem?_append_left (List.getElem?_eq_some_iff.mp hk).1).trans hk
      refine ⟨(world.claim setup level claimed).settle arith k probe (some (.ok ())), ?_, ?_⟩
      · rw [World.step, hat, Option.bind_some, hphase]
        exact if_pos nofun
      · have hsettled : ((world.claim setup level claimed).settle arith k probe
            (some (.ok ()))).rotators probe.level.rotator =
              (world.claim setup level claimed).outcome arith probe (some (.ok ())) :=
          (put_rotators _ _ _ _).trans (if_pos rfl)
        rw [hsettled]
        refine success_clears hbefore ?_ (?_ : _ = some (cell.tryLease world.now
          (world.rotators probe.level.rotator).ratings.quarantine).2) ?_
        · rw [hrotator]
          exact hindex
        · rw [hrotator, use_cell, hcell, Option.map_some]
          exact congrArg some (if_pos hsound.enabled)
        · rw [Cell.tryLease, if_neg (by simp [hstate]), Option.isNone_iff_eq_none.mp hnone]
          obtain ⟨ending, hending, _⟩ := Cell.state_probation.mp hstate
          simp [hending]
  · cases hstep

end

structure Ready {ρ : Type u} (setup : Setup) (world : World ρ) : Prop where
  configured : Configured setup world
  probes : world.probes = []

theorem Ready.inv {ρ : Type u} {setup : Setup} {world : World ρ} (hready : Ready setup world) :
    Inv setup world := by
  refine ⟨hready.configured, fun probe hprobe => ?_⟩
  rw [hready.probes] at hprobe
  cases hprobe

section

variable {ρ : Type u} (arith : FloatArith) (rng : Rng ρ) (setup : Setup) {start world : World ρ}

theorem reaches_inv (hready : Ready setup start)
    (hreach : Reaches (World.step arith rng setup) start world) : Inv setup world :=
  hreach.preserves (fun _ _ _ hstep hinv => step_inv hstep hinv) hready.inv

theorem calm_fresh (hready : Ready setup start)
    (hreach : Reaches (guarded (World.step arith rng setup) World.calm) start world) :
    ∀ probe ∈ world.probes, Fresh world probe := by
  have hkept : ∀ world event next,
      guarded (World.step arith rng setup) World.calm world event = some next →
        (Inv setup world ∧ ∀ probe ∈ world.probes, Fresh world probe) →
          Inv setup next ∧ ∀ probe ∈ next.probes, Fresh next probe := by
    rintro world event next hguarded ⟨hinv, hfresh⟩
    obtain ⟨hcalm, hstep⟩ := guarded_eq_some.mp hguarded
    exact ⟨step_inv hstep hinv, step_fresh hinv hfresh hstep hcalm⟩
  have hnone : ∀ probe ∈ start.probes, Fresh start probe := by
    intro probe hprobe
    rw [hready.probes] at hprobe
    cases hprobe
  exact (hreach.preserves hkept ⟨hready.inv, hnone⟩).2

/-- A dialed probe gives up before its fence, and the fence stands within the lease of its cell. A
result changes the tested upstream only, and only for an answer or a refusal by it. In a run where
probes are claimed calmly it changes it only under the newest lease; a claim that is not calm leaves
a probe whose result would come stale. -/
theorem probe_results (hready : Ready setup start)
    (hreach : Reaches (World.step arith rng setup) start world) :
    (∀ probe ∈ world.probes, probe.fence ≤ probe.leaseEnd ∧
      ∀ chain deadline, probe.phase = .dialing chain deadline → deadline < probe.fence) ∧
    (∀ (k : Nat) probe attempt next, world.probes[k]? = some probe →
      world.step arith rng setup (.settle k attempt) = some next →
      ∀ r j, (next.rotators r).slot? j ≠ (world.rotators r).slot? j →
        (r = probe.level.rotator ∧ (world.rotators r).indexOf probe.proxy = some j ∧
          Decisive attempt) ∧
        (Reaches (guarded (World.step arith rng setup) World.calm) start world →
          probe.grant = world.grants r j)) ∧
    ∀ level claimed next, world.step arith rng setup (.claim level claimed) = some next →
      world.calm (.claim level claimed) = false →
      ∃ (k : Nat) (probe : ChainProbe) (j : Nat), next.probes[k]? = some probe ∧
        probe.grant < next.grants probe.level.rotator j ∧
        ∀ chain deadline, probe.phase = .dialing chain deadline →
          ∃ last, next.step arith rng setup (.settle k (some (.ok ()))) = some last ∧
            (last.rotators probe.level.rotator).slot? j ≠
              (next.rotators probe.level.rotator).slot? j := by
  have hinv := reaches_inv arith rng setup hready hreach
  refine ⟨fun probe hprobe => ?_, ?_, fun level claimed next => stale_of_claim hinv⟩
  · exact ⟨(hinv.sound probe hprobe).leaseEnd, (hinv.sound probe hprobe).dialing⟩
  · intro k probe attempt next hprobe hstep r j hchanged
    rw [settle_step hprobe hstep] at hchanged
    obtain ⟨rfl, hbefore, hdecisive, hindex⟩ := settle_changed hchanged
    refine ⟨⟨rfl, hindex, hdecisive⟩, fun hcalm => ?_⟩
    have hfresh := calm_fresh arith rng setup hready hcalm probe (List.mem_of_getElem? hprobe)
    exact (hfresh j hindex hbefore).1

end

/-! A probe overtaken by the next one. -/

def twoLevels : Setup where
  gates := ⟨[⟨2, 0⟩, ⟨1, 1⟩], by decide⟩
  connectTimeout := Duration.ofSecs 10
  handshakeTimeout := Duration.ofSecs 10

def outerGate : ProxyConfig := ⟨⟨.socks5, lit "outer", 1080, none, none, 2⟩, []⟩

def innerGate : ProxyConfig := ⟨⟨.socks5, lit "inner", 1080, none, none, 1⟩, []⟩

def levelRotator (proxy : ProxyConfig) : Rotator UInt64 where
  proxies := [proxy]
  ratings := Ratings.fresh 1 ⟨.finite 30, .finite 1, .finite 8, .finite 1, .finite 1⟩
    ⟨1, Duration.ofSecs 5, Duration.ofSecs 5, twoLevels.lease, one_le_u32Max⟩ 0 7

def twoWorld : World UInt64 where
  now := 0
  rotators := fun r => if r = 0 then levelRotator outerGate else levelRotator innerGate
  probes := []
  grants := fun _ _ => 0

theorem twoWorld_ready : Ready twoLevels twoWorld :=
  ⟨⟨by decide +kernel, by decide +kernel⟩, rfl⟩

/-- The inner gate fails, is probed after five seconds, and the probe dials. -/
def probedEvents : List ProbeEvent :=
  [.report 1 (.hardFailure 0 0), .later (Duration.ofSecs 5), .claim ⟨1, 1⟩ (Duration.ofSecs 5),
    .pick 0, .pick 0]

/-- A second later a request finds it dead again, and it is probed again when that is over. -/
def overtakenEvents : List ProbeEvent :=
  probedEvents ++ [.later (Duration.ofSecs 6), .report 1 (.hardFailure 0 (Duration.ofSecs 6)),
    .later (Duration.ofSecs 11), .claim ⟨1, 1⟩ (Duration.ofSecs 11), .later (Duration.ofSecs 20)]

theorem probe_results_dialed : ∃ world,
    run (World.step Ratings.exactArith smallRng twoLevels) twoWorld probedEvents = some world ∧
      ∀ probe ∈ world.probes, probe.fence ≤ probe.leaseEnd ∧
        ∀ chain deadline, probe.phase = .dialing chain deadline → deadline < probe.fence := by
  obtain ⟨world, hrun⟩ : ∃ world, run (World.step Ratings.exactArith smallRng twoLevels) twoWorld
      probedEvents = some world := Option.isSome_iff_exists.mp (by decide +kernel)
  exact ⟨world, hrun, (probe_results _ _ _ twoWorld_ready ⟨_, hrun⟩).1⟩

/-- The first probe answers before its deadline, and wipes out what the second has been leased. -/
theorem probe_results_stale :
    ((run (World.step Ratings.exactArith smallRng twoLevels) twoWorld overtakenEvents).any
      fun world => world.probes[0]?.any fun probe =>
        decide (probe.grant < world.grants 1 0) && decide (world.now < probe.fence) &&
          (world.step Ratings.exactArith smallRng twoLevels (.settle 0 (some (.ok ())))).any
            fun next => decide ((next.rotators 1).slot? 0 ≠ (world.rotators 1).slot? 0)) = true := by
  decide +kernel

end Resocks5.Probe
