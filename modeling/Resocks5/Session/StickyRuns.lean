import Resocks5.Session.StickyRefinement

namespace Resocks5.Session

open Resocks5.Foundation

namespace StickyCache

variable {Key Proxy : Type}

/-! Everything that may happen to a cache. -/

/-- The clock does not run backwards, every entry ends at an instant, and the generations do not
wrap around. -/
structure Orderly (ttl : Duration) (ops : List (StickyOp Key Proxy)) : Prop where
  ordered : (ops.filterMap StickyOp.time).Pairwise (· ≤ ·)
  representable : ∀ addr proxy now, .insert addr proxy now ∈ ops → now + ttl ≤ Instant.max
  count : ops.length < 2 ^ 64

theorem Orderly.front {ttl : Duration} {ops more : List (StickyOp Key Proxy)}
    (horderly : Orderly ttl (ops ++ more)) : Orderly ttl ops := by
  obtain ⟨hordered, hrepresentable, hcount⟩ := horderly
  rw [List.filterMap_append, List.pairwise_append] at hordered
  rw [List.length_append] at hcount
  exact ⟨hordered.1, fun addr proxy now hin =>
    hrepresentable addr proxy now (List.mem_append_left _ hin), by omega⟩

theorem Orderly.last {ttl : Duration} {ops : List (StickyOp Key Proxy)} {op : StickyOp Key Proxy}
    (horderly : Orderly ttl (ops ++ [op])) {now : Instant} (htime : op.time = some now) :
    ∀ time ∈ ops.filterMap StickyOp.time, time ≤ now := by
  have hordered := horderly.ordered
  rw [List.filterMap_append, List.pairwise_append] at hordered
  intro time hin
  exact hordered.2.2 time hin now (by simp [htime])

variable [LinearOrder Key]

theorem applyAll_append (cache : StickyCache Key Proxy) (ops : List (StickyOp Key Proxy))
    (op : StickyOp Key Proxy) :
    cache.applyAll (ops ++ [op]) = ((cache.applyAll ops).step op).2 := by
  rw [applyAll, List.foldl_append]
  rfl

theorem history_append (cache : StickyCache Key Proxy) (ops : List (StickyOp Key Proxy))
    (op : StickyOp Key Proxy) (events : List (Lru.Event Key Proxy Instant)) :
    cache.history (ops ++ [op]) events =
      (op.abstract (cache.applyAll ops).ttl, ((cache.applyAll ops).step op).1) ::
        cache.history ops events := by
  induction ops generalizing cache events with
  | nil => rfl
  | cons first ops ih => exact ih (cache.step first).2 _

/-- After every run the cache has its list, and the run was one of the map. -/
theorem run_simulates (maxEntries : Nat) (ttl : Duration) {ops : List (StickyOp Key Proxy)}
    (horderly : Orderly ttl ops) :
    ∃ entries, Lru.Run maxEntries ((new maxEntries ttl).history ops []) (entries.map view) ∧
      ((new maxEntries ttl).applyAll ops).Tracks (ops.filterMap StickyOp.time) entries ∧
      ((new maxEntries ttl).applyAll ops).maxEntries = maxEntries ∧
      ((new maxEntries ttl).applyAll ops).ttl = ttl ∧
      ((new maxEntries ttl).applyAll ops).nextGeneration ≤ ops.length := by
  induction ops using List.reverseRecOn with
  | nil => exact ⟨[], .nil, new_tracks maxEntries ttl, rfl, rfl, Nat.le_refl _⟩
  | append_singleton ops op ih =>
      obtain ⟨entries, hrun, htracks, hmax, httl, hgeneration⟩ := ih horderly.front
      have hcount := horderly.count
      rw [List.length_append, List.length_singleton] at hcount
      obtain ⟨entries', hsimulates⟩ := step_simulates htracks op (fun _ => horderly.last)
        (fun addr proxy now heq => by
          rw [httl]
          exact horderly.representable addr proxy now (by simp [heq]))
        (by omega)
      obtain ⟨habstract, htracks', hmax', httl', hgeneration'⟩ := hsimulates
      rw [hmax] at habstract
      rw [applyAll_append, history_append]
      refine ⟨entries', .cons hrun habstract, ?_, hmax'.trans hmax, httl'.trans httl, ?_⟩
      · have htimes : (ops ++ [op]).filterMap StickyOp.time =
            ops.filterMap StickyOp.time ++ op.time.toList := by
          rw [List.filterMap_append]
          cases htime : op.time with
          | none => simp [htime]
          | some now => simp [htime]
        rw [htimes]
        exact htracks'
      · rw [List.length_append, List.length_singleton]
        exact Nat.le_trans hgeneration' (Nat.succ_le_succ hgeneration)

theorem mem_entries {cache : StickyCache Key Proxy} {times : List Instant}
    {entries : List (Key × StickyEntry Proxy)} (htracks : cache.Tracks times entries)
    (entry : LruEntry Key Proxy Instant) :
    entry ∈ entries.map view ↔ ∃ old, cache.map.lookup entry.key = some old ∧
      old.proxy = entry.value ∧ old.expiresAt = entry.deadline := by
  rw [List.mem_map]
  constructor
  · rintro ⟨⟨key, old⟩, hin, rfl⟩
    exact ⟨old, (htracks.lookup key old).mpr hin, rfl, rfl⟩
  · rintro ⟨old, hlookup, hvalue, hdeadline⟩
    refine ⟨(entry.key, old), (htracks.lookup _ _).mp hlookup, ?_⟩
    rw [view, hvalue, hdeadline]

theorem get_lastInsert {cache : StickyCache Key Proxy} {times : List Instant}
    {entries : List (Key × StickyEntry Proxy)} (htracks : cache.Tracks times entries)
    {capacity : Nat} {events : List (Lru.Event Key Proxy Instant)}
    (hrun : Lru.Run capacity events (entries.map view)) (addr : Key) (now : Instant) (proxy : Proxy) :
    (cache.get addr now).1 = some proxy ↔
      addr ∈ cache.map ∧ ∃ deadline, Lru.lastInsert events addr = some (proxy, deadline) ∧
        now < deadline := by
  cases hlookup : cache.map.lookup addr with
  | none =>
      rw [get, hlookup, ← AList.lookup_isSome, hlookup]
      simp
  | some entry =>
      have hlast := hrun.lastInsert_eq (mem_view htracks hlookup)
      have hin : addr ∈ cache.map := AList.lookup_isSome.mp (by rw [hlookup]; rfl)
      dsimp only at hlast
      rw [hlast, get, hlookup]
      dsimp only
      by_cases hover : entry.expiresAt ≤ now
      · rw [if_pos hover]
        refine iff_of_false (by simp) ?_
        rintro ⟨-, deadline, hsame, hlive⟩
        obtain ⟨-, rfl⟩ := Prod.mk.inj (Option.some.inj hsame)
        exact absurd hover (Nat.not_le.mpr hlive)
      · rw [if_neg hover]
        simp only [Option.some.injEq, Prod.mk.injEq]
        constructor
        · rintro rfl
          exact ⟨hin, entry.expiresAt, ⟨rfl, rfl⟩, Nat.not_le.mp hover⟩
        · rintro ⟨-, deadline, ⟨rfl, -⟩, -⟩
          rfl

theorem mem_remove {cache : StickyCache Key Proxy} {addr key : Key} :
    key ∈ (cache.remove addr).2.map ↔ key ≠ addr ∧ key ∈ cache.map := by
  unfold remove
  split
  · rename_i hlookup
    have habsent := AList.lookup_eq_none.mp hlookup
    refine ⟨fun hin => ⟨?_, hin⟩, And.right⟩
    rintro rfl
    exact habsent hin
  · exact AList.mem_erase

theorem insert_evicts {cache : StickyCache Key Proxy} {times : List Instant}
    {entries : List (Key × StickyEntry Proxy)} (htracks : cache.Tracks times entries)
    {capacity : Nat} {events : List (Lru.Event Key Proxy Instant)}
    (hrun : Lru.Run capacity events (entries.map view)) {addr : Key} (hnew : addr ∉ cache.map)
    (hfull : cache.maxEntries ≤ cache.map.keys.length) (hroom : cache.maxEntries ≠ 0)
    (proxy : Proxy) (now : Instant) :
    ∃ victim ∈ cache.map,
      (∀ key, key ∈ (cache.insert addr proxy now).map ↔
        key = addr ∨ (key ∈ cache.map ∧ key ≠ victim)) ∧
      ((∃ value deadline, Lru.lastInsert events victim = some (value, deadline) ∧ deadline ≤ now) ∨
        (∀ key ∈ cache.map, ∀ value deadline,
            Lru.lastInsert events key = some (value, deadline) → now < deadline) ∧
          ∀ key ∈ cache.map, key ≠ victim →
            Lru.sinceUse events key < Lru.sinceUse events victim) := by
  have hremove : (cache.remove addr).2 = cache := by
    rw [remove, AList.lookup_eq_none.mpr hnew]
  have hinsert := insert_parts hroom addr proxy now
  rw [hremove] at hinsert
  have hkeys {victim : Key} (hvictim : cache.victim now = some victim) (key : Key) :
      key ∈ (cache.insert addr proxy now).map ↔
        key = addr ∨ (key ∈ cache.map ∧ key ≠ victim) := by
    rw [hinsert, push, AList.mem_insert, makeRoom, if_pos hfull, hvictim]
    dsimp only
    rw [mem_remove, and_comm]
  have hne : entries ≠ [] := by
    rintro rfl
    rw [htracks.length, List.length_nil, Nat.le_zero] at hfull
    exact hroom hfull
  have hlast {key : Key} {entry : StickyEntry Proxy} (hin : (key, entry) ∈ entries) :
      Lru.lastInsert events key = some (entry.proxy, entry.expiresAt) :=
    hrun.lastInsert_eq (List.mem_map_of_mem (f := view) hin)
  obtain ⟨key, old, hin, hover, hvictim⟩ | ⟨key, old, rest, rfl, hlive, hvictim⟩ :=
    htracks.victim hne now
  · exact ⟨key, htracks.mem_map.mpr ⟨old, hin⟩, hkeys hvictim,
      .inl ⟨old.proxy, old.expiresAt, hlast hin, hover⟩⟩
  · refine ⟨key, htracks.mem_map.mpr ⟨old, List.mem_cons_self⟩, hkeys hvictim,
      .inr ⟨fun key' hin' value deadline hsame => ?_, fun key' hin' hother => ?_⟩⟩
    · obtain ⟨entry, hentry⟩ := htracks.mem_map.mp hin'
      rw [hlast hentry] at hsame
      obtain ⟨-, rfl⟩ := Prod.mk.inj (Option.some.inj hsame)
      exact hlive _ hentry
    · obtain ⟨entry, hentry⟩ := htracks.mem_map.mp hin'
      obtain heq | hrest := List.mem_cons.mp hentry
      · exact absurd (congrArg Prod.fst heq) hother
      · have hrecency := hrun.recency
        rw [List.map_cons, List.pairwise_cons] at hrecency
        exact hrecency.1 _ (List.mem_map_of_mem hrest)

/-- The cache is a map of bounded size with expiring entries: the three indices agree, there are
never too many entries, the results are those of the map, a lookup brings what was inserted last
and has not expired, and what makes room is an expired entry or else the least recently used. -/
theorem stickyCache_lru (maxEntries : Nat) (ttl : Duration) {ops : List (StickyOp Key Proxy)}
    (horderly : Orderly ttl ops) :
    let cache := (new maxEntries ttl).applyAll ops
    let events := (new maxEntries ttl).history ops []
    cache.Indexed ∧ cache.map.keys.length ≤ maxEntries ∧
      (∃ entries, Lru.Run maxEntries events entries ∧
        ∀ entry, entry ∈ entries ↔ ∃ old, cache.map.lookup entry.key = some old ∧
          old.proxy = entry.value ∧ old.expiresAt = entry.deadline) ∧
      (∀ addr now proxy, (cache.get addr now).1 = some proxy ↔
        addr ∈ cache.map ∧ ∃ deadline, Lru.lastInsert events addr = some (proxy, deadline) ∧
          now < deadline) ∧
      (∀ addr, addr ∉ cache.map → maxEntries ≤ cache.map.keys.length → maxEntries ≠ 0 →
        ∀ proxy now, ∃ victim ∈ cache.map,
          (∀ key, key ∈ (cache.insert addr proxy now).map ↔
            key = addr ∨ (key ∈ cache.map ∧ key ≠ victim)) ∧
          ((∃ value deadline, Lru.lastInsert events victim = some (value, deadline) ∧
              deadline ≤ now) ∨
            (∀ key ∈ cache.map, ∀ value deadline,
                Lru.lastInsert events key = some (value, deadline) → now < deadline) ∧
              ∀ key ∈ cache.map, key ≠ victim →
                Lru.sinceUse events key < Lru.sinceUse events victim)) := by
  intro cache events
  obtain ⟨entries, hrun, htracks, hmax, -, -⟩ := run_simulates maxEntries ttl horderly
  refine ⟨htracks.indexed, ?_, ⟨_, hrun, mem_entries htracks⟩,
    fun addr now proxy => get_lastInsert htracks hrun addr now proxy,
    fun addr hnew hfull hroom proxy now =>
      insert_evicts htracks hrun hnew (hmax.symm ▸ hfull) (hmax.symm ▸ hroom) proxy now⟩
  have hlength := hrun.length_le
  rw [List.length_map, ← htracks.length] at hlength
  exact hlength

/-- The second of three keys goes: the first one was looked up after it had come. -/
theorem stickyCache_lru_touched :
    let cache : StickyCache Nat Nat :=
      (new 2 10).applyAll [.insert 1 11 0, .insert 2 22 1, .get 1 1]
    ∃ victim ∈ cache.map, ∀ key, key ∈ (cache.insert 3 33 3).map ↔
      key = 3 ∨ (key ∈ cache.map ∧ key ≠ victim) := by
  have hrepresentable : ∀ addr proxy now, StickyOp.insert addr proxy now ∈
      [StickyOp.insert 1 11 0, .insert 2 22 1, .get 1 1] → now + 10 ≤ Instant.max := by
    intro addr proxy now hin
    simp only [List.mem_cons, StickyOp.insert.injEq, reduceCtorEq, List.not_mem_nil, or_false] at hin
    obtain ⟨-, -, rfl⟩ | ⟨-, -, rfl⟩ := hin
    all_goals decide +kernel
  obtain ⟨victim, hin, hkeys, -⟩ := (stickyCache_lru 2 10
    ⟨by decide, hrepresentable, by decide⟩).2.2.2.2 3 (by decide +kernel) (by decide +kernel)
      (by decide) 33 3
  exact ⟨victim, hin, hkeys⟩

end StickyCache

end Resocks5.Session
