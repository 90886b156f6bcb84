import Resocks5.Session.StickyRuns

namespace Resocks5.Session

open Resocks5.Foundation

namespace StickyCache

variable {Key Proxy : Type} [LinearOrder Key]

/-! How long an entry lives. -/

/-- The operation neither replaces nor removes the entry of the key, nor evicts it. -/
def Spares (addr : Key) (cache : StickyCache Key Proxy) : StickyOp Key Proxy → Prop
  | .get _ _ => True
  | .insert key proxy now => key ≠ addr ∧ (addr ∈ cache.map → addr ∈ (cache.insert key proxy now).map)
  | .remove key => key ≠ addr

def Undisturbed (addr : Key) : StickyCache Key Proxy → List (StickyOp Key Proxy) → Prop
  | _, [] => True
  | cache, op :: ops => Spares addr cache op ∧ Undisturbed addr (cache.step op).2 ops

/-- An entry that is inserted at `now` and left alone is found until `ttl` later, and never then. -/
def LivesItsTtl (cache : StickyCache Key Proxy) (addr : Key) (proxy : Proxy) (now : Instant) :
    Prop :=
  ∀ between later, Undisturbed addr (cache.insert addr proxy now) between →
    (now :: between.filterMap StickyOp.time ++ [later]).Pairwise (· ≤ ·) →
    ((((cache.insert addr proxy now).applyAll between).get addr later).1 = some proxy ↔
      later < now + cache.ttl)

/-- The entry of the key is there until `deadline`; once it is gone, a time from then on has come. -/
def Kept (cache : StickyCache Key Proxy) (addr : Key) (proxy : Proxy) (deadline now : Instant) :
    Prop :=
  (∃ entry, cache.map.lookup addr = some entry ∧ entry.proxy = proxy ∧
      entry.expiresAt = deadline) ∨
    (cache.map.lookup addr = none ∧ deadline ≤ now)

theorem lookup_remove_ne {cache : StickyCache Key Proxy} {addr key : Key} (hne : addr ≠ key) :
    (cache.remove key).2.map.lookup addr = cache.map.lookup addr := by
  unfold remove
  split
  · rfl
  · exact AList.lookup_erase_ne hne

theorem lookup_get_ne {cache : StickyCache Key Proxy} {addr key : Key} (hne : addr ≠ key)
    (now : Instant) : (cache.get key now).2.map.lookup addr = cache.map.lookup addr := by
  unfold get
  split
  · rfl
  · split
    · exact lookup_remove_ne hne
    · exact AList.lookup_insert_ne hne

theorem lookup_insert_self {cache : StickyCache Key Proxy} (hroom : cache.maxEntries ≠ 0)
    (addr : Key) (proxy : Proxy) (now : Instant) :
    ∃ entry, (cache.insert addr proxy now).map.lookup addr = some entry ∧ entry.proxy = proxy ∧
      entry.expiresAt = (Instant.checkedAdd now cache.ttl).getD now := by
  rw [insert_parts hroom, push]
  exact ⟨_, AList.lookup_insert _, rfl, rfl⟩

theorem lookup_insert_ne {cache : StickyCache Key Proxy} {addr key : Key} (hne : addr ≠ key)
    (proxy : Proxy) (now : Instant) :
    (cache.insert key proxy now).map.lookup addr = cache.map.lookup addr ∨
      (cache.insert key proxy now).map.lookup addr = none := by
  by_cases hroom : cache.maxEntries = 0
  · refine .inl ?_
    rw [insert, if_pos hroom]
  · rw [insert_parts hroom, push]
    dsimp only
    have hsame : (cache.remove key).2.map.lookup addr = cache.map.lookup addr :=
      lookup_remove_ne hne
    rw [AList.lookup_insert_ne hne, ← hsame, makeRoom]
    split
    · cases hvictim : (cache.remove key).2.victim now with
      | none => exact .inl rfl
      | some victim =>
          dsimp only
          by_cases hsame : addr = victim
          · refine .inr (AList.lookup_eq_none.mpr fun hin => ?_)
            exact (mem_remove.mp hin).1 hsame
          · exact .inl (lookup_remove_ne hsame)
    · exact .inl rfl

theorem Kept.step {cache : StickyCache Key Proxy} {addr : Key} {proxy : Proxy}
    {deadline now : Instant} (hkept : cache.Kept addr proxy deadline now)
    {op : StickyOp Key Proxy} (hspares : Spares addr cache op) {now' : Instant}
    (hnow : now ≤ now') (htime : ∀ time, op.time = some time → time ≤ now') :
    (cache.step op).2.Kept addr proxy deadline now' := by
  have hsame {cache' : StickyCache Key Proxy}
      (hlookup : cache'.map.lookup addr = cache.map.lookup addr) :
      cache'.Kept addr proxy deadline now' := by
    unfold Kept
    rw [hlookup]
    exact hkept.imp id fun hgone => ⟨hgone.1, Nat.le_trans hgone.2 hnow⟩
  cases op with
  | remove key => exact hsame (lookup_remove_ne (Ne.symm hspares))
  | insert key proxy' time =>
      obtain ⟨hne, hstays⟩ := hspares
      obtain hlookup | hevicted : (cache.insert key proxy' time).map.lookup addr =
          cache.map.lookup addr ∨ (cache.insert key proxy' time).map.lookup addr = none :=
        lookup_insert_ne (Ne.symm hne) proxy' time
      · exact hsame hlookup
      · cases hlookup : cache.map.lookup addr with
        | none => exact hsame (hevicted.trans hlookup.symm)
        | some entry =>
            have hin := hstays (AList.lookup_isSome.mp (by rw [hlookup]; rfl))
            exact absurd hin (AList.lookup_eq_none.mp hevicted)
  | get key time =>
      by_cases hne : addr = key
      · subst hne
        obtain ⟨entry, hlookup, hproxy, hdeadline⟩ | ⟨hlookup, hover⟩ := hkept
        · by_cases hexpired : entry.expiresAt ≤ time
          · have hget : (cache.get addr time).2 = (cache.remove addr).2 := by
              rw [get, hlookup]
              exact congrArg Prod.snd (if_pos hexpired)
            refine .inr ⟨?_, ?_⟩
            · rw [StickyCache.step, hget]
              exact AList.lookup_eq_none.mpr fun hin => (mem_remove.mp hin).1 rfl
            · rw [← hdeadline]
              exact Nat.le_trans hexpired (htime time rfl)
          · refine .inl ⟨{ entry with lastUsed := time, generation := cache.nextGeneration }, ?_,
              hproxy, hdeadline⟩
            rw [StickyCache.step, get, hlookup]
            dsimp only
            rw [if_neg hexpired]
            exact AList.lookup_insert _
        · have hget : (cache.get addr time).2 = cache := by rw [get, hlookup]
          refine .inr ⟨?_, Nat.le_trans hover hnow⟩
          rw [StickyCache.step, hget, hlookup]
      · exact hsame (lookup_get_ne hne time)

theorem Kept.applyAll {cache : StickyCache Key Proxy} {addr : Key} {proxy : Proxy}
    {deadline now : Instant} (hkept : cache.Kept addr proxy deadline now)
    {ops : List (StickyOp Key Proxy)} (hundisturbed : Undisturbed addr cache ops) {later : Instant}
    (hordered : (now :: ops.filterMap StickyOp.time ++ [later]).Pairwise (· ≤ ·)) :
    (cache.applyAll ops).Kept addr proxy deadline later := by
  induction ops generalizing cache now with
  | nil =>
      have hle : now ≤ later := by simpa using hordered
      exact hkept.imp id fun hgone => ⟨hgone.1, Nat.le_trans hgone.2 hle⟩
  | cons op ops ih =>
      obtain ⟨hspares, hrest⟩ := hundisturbed
      cases htime : op.time with
      | none =>
          rw [List.filterMap_cons_none htime] at hordered
          refine ih (hkept.step hspares (Nat.le_refl now) fun time heq => ?_) hrest hordered
          rw [htime] at heq
          cases heq
      | some time =>
          rw [List.filterMap_cons_some htime] at hordered
          have hle : now ≤ time := (List.pairwise_cons.mp hordered).1 time (by simp)
          refine ih (hkept.step hspares hle fun time' heq => ?_) hrest
            (List.pairwise_cons.mp hordered).2
          rw [htime] at heq
          exact Nat.le_of_eq (Option.some.inj heq).symm

theorem Kept.get {cache : StickyCache Key Proxy} {addr : Key} {proxy : Proxy}
    {deadline now : Instant} (hkept : cache.Kept addr proxy deadline now) :
    (cache.get addr now).1 = some proxy ↔ now < deadline := by
  obtain ⟨entry, hlookup, hproxy, hdeadline⟩ | ⟨hlookup, hover⟩ := hkept
  · rw [StickyCache.get, hlookup]
    dsimp only
    rw [hdeadline]
    split
    · rename_i hexpired
      exact iff_of_false (by simp) (Nat.not_lt.mpr hexpired)
    · rename_i hlive
      rw [hproxy]
      exact iff_of_true rfl (Nat.not_le.mp hlive)
  · rw [StickyCache.get, hlookup]
    exact iff_of_false (by simp) (Nat.not_lt.mpr hover)

/-- An entry lives for its time exactly where that ends at an instant. -/
theorem sticky_ttl {cache : StickyCache Key Proxy} (hroom : cache.maxEntries ≠ 0) (addr : Key)
    (proxy : Proxy) {now : Instant} (hnow : now ≤ Instant.max) :
    cache.LivesItsTtl addr proxy now ↔ now + cache.ttl ≤ Instant.max := by
  obtain ⟨entry, hlookup, hproxy, hexpires⟩ := lookup_insert_self hroom addr proxy now
  have hkept : (cache.insert addr proxy now).Kept addr proxy
      ((Instant.checkedAdd now cache.ttl).getD now) now :=
    .inl ⟨entry, hlookup, hproxy, hexpires⟩
  constructor
  · intro hlives
    by_contra hover
    have hnone : Instant.checkedAdd now cache.ttl = none := if_neg hover
    have hfound := hlives [] now trivial (by simp)
    rw [applyAll, List.foldl_nil, hkept.get, hnone, Option.getD_none] at hfound
    exact Nat.lt_irrefl now (hfound.mpr (Nat.lt_of_le_of_lt hnow (Nat.not_le.mp hover)))
  · intro hfits between later hundisturbed hordered
    have hsome : (Instant.checkedAdd now cache.ttl).getD now = now + cache.ttl := by
      rw [Instant.checkedAdd, if_pos hfits]
      rfl
    rw [hsome] at hkept
    exact (hkept.applyAll hundisturbed hordered).get

theorem sticky_ttl_short :
    (new 2 10 : StickyCache Nat Nat).LivesItsTtl 1 11 5 :=
  (sticky_ttl (by decide) 1 11 (by decide +kernel)).mpr (by decide +kernel)

/-- An entry that is to live for ever is gone at once. -/
theorem sticky_ttl_forever : ¬ ∀ (maxEntries : Nat) (ttl : Duration) (ops : List (StickyOp Nat Nat))
    (addr proxy : Nat) (now : Instant), maxEntries ≠ 0 → ttl ≤ Duration.max → now ≤ Instant.max →
    ((new maxEntries ttl).applyAll ops).LivesItsTtl addr proxy now := by
  intro hall
  have hfound := hall 2 Duration.max [] 1 11 5 (by decide) (Nat.le_refl _) (by decide +kernel) [] 5
    trivial (by simp)
  revert hfound
  decide +kernel

end StickyCache

end Resocks5.Session
