import Resocks5.Session.StickyCache

namespace Resocks5.Session

open Resocks5.Foundation

namespace StickyCache

variable {Key Proxy : Type} [LinearOrder Key]

/-! The three indices of the cache against one list of its entries. -/

/-- The entries of the cache, the least recently used first, and all of them used at one of the
given times. -/
structure Tracks (cache : StickyCache Key Proxy) (times : List Instant)
    (entries : List (Key × StickyEntry Proxy)) : Prop where
  nodup : (entries.map Prod.fst).Nodup
  lookup : ∀ key entry, cache.map.lookup key = some entry ↔ (key, entry) ∈ entries
  recency : ∀ record, record ∈ cache.recency ↔
    ∃ key entry, (key, entry) ∈ entries ∧ record = useOf key entry
  expiry : ∀ record, record ∈ cache.expiry ↔
    ∃ key entry, (key, entry) ∈ entries ∧ record = expiryOf key entry
  ordered : entries.Pairwise fun older newer =>
    older.2.lastUsed ≤ newer.2.lastUsed ∧ older.2.generation < newer.2.generation
  past : ∀ key entry, (key, entry) ∈ entries →
    entry.lastUsed ∈ times ∧ entry.generation < cache.nextGeneration

/-- Each entry has one recency record and one expiry record, and each record an entry. -/
structure Indexed (cache : StickyCache Key Proxy) : Prop where
  recency : ∀ record, record ∈ cache.recency ↔
    ∃ key entry, cache.map.lookup key = some entry ∧ record = useOf key entry
  expiry : ∀ record, record ∈ cache.expiry ↔
    ∃ key entry, cache.map.lookup key = some entry ∧ record = expiryOf key entry
  recency_card : cache.recency.card = cache.map.keys.length
  expiry_card : cache.expiry.card = cache.map.keys.length

def dropKey (entries : List (Key × StickyEntry Proxy)) (key : Key) :
    List (Key × StickyEntry Proxy) :=
  entries.filter fun pair => pair.1 ≠ key

def view (pair : Key × StickyEntry Proxy) : LruEntry Key Proxy Instant :=
  ⟨pair.1, pair.2.proxy, pair.2.expiresAt⟩

theorem mem_dropKey {entries : List (Key × StickyEntry Proxy)} {key : Key}
    {pair : Key × StickyEntry Proxy} :
    pair ∈ dropKey entries key ↔ pair ∈ entries ∧ pair.1 ≠ key := by
  simp [dropKey, List.mem_filter]

theorem dropKey_sublist (entries : List (Key × StickyEntry Proxy)) (key : Key) :
    (dropKey entries key).Sublist entries := List.filter_sublist

theorem without_view (entries : List (Key × StickyEntry Proxy)) (key : Key) :
    Lru.without (entries.map view) key = (dropKey entries key).map view := by
  rw [Lru.without, List.filter_map]
  rfl

theorem dropKey_absent {entries : List (Key × StickyEntry Proxy)} {key : Key}
    (habsent : ∀ pair ∈ entries, pair.1 ≠ key) : dropKey entries key = entries :=
  List.filter_eq_self.mpr (by simpa using habsent)

namespace Tracks

variable {cache : StickyCache Key Proxy} {times : List Instant}
  {entries : List (Key × StickyEntry Proxy)}

theorem unique (htracks : cache.Tracks times entries) {key : Key} {entry entry' : StickyEntry Proxy}
    (hin : (key, entry) ∈ entries) (hin' : (key, entry') ∈ entries) : entry = entry' := by
  rw [← htracks.lookup] at hin hin'
  exact Option.some.inj (hin.symm.trans hin')

theorem mem_map (htracks : cache.Tracks times entries) {key : Key} :
    key ∈ cache.map ↔ ∃ entry, (key, entry) ∈ entries := by
  rw [← AList.lookup_isSome, Option.isSome_iff_exists]
  exact exists_congr fun entry => htracks.lookup key entry

theorem length (htracks : cache.Tracks times entries) :
    cache.map.keys.length = entries.length := by
  have hperm : cache.map.keys.Perm (entries.map Prod.fst) := by
    refine (List.perm_ext_iff_of_nodup cache.map.keys_nodup htracks.nodup).mpr fun key => ?_
    rw [← AList.mem_keys, htracks.mem_map, List.mem_map]
    simp
  rw [hperm.length_eq, List.length_map]

theorem indexed (htracks : cache.Tracks times entries) : cache.Indexed := by
  have hcard {α : Type} [DecidableEq α] {set : Finset α} (record : Key → StickyEntry Proxy → α)
      (hinj : ∀ key entry key' entry', record key entry = record key' entry' → key = key')
      (hset : ∀ x, x ∈ set ↔ ∃ key entry, (key, entry) ∈ entries ∧ x = record key entry) :
      set.card = cache.map.keys.length := by
    have heq : set = (entries.map fun pair => record pair.1 pair.2).toFinset := by
      ext x
      rw [hset, List.mem_toFinset, List.mem_map]
      simp [eq_comm]
    have hnodup : (entries.map fun pair => record pair.1 pair.2).Nodup := by
      refine List.Nodup.of_map Prod.fst htracks.nodup |>.map_on fun pair hin pair' hin' hsame => ?_
      have hkey := hinj _ _ _ _ hsame
      obtain ⟨key, entry⟩ := pair
      obtain ⟨key', entry'⟩ := pair'
      obtain rfl : key = key' := hkey
      rw [htracks.unique hin hin']
    rw [heq, List.toFinset_card_of_nodup hnodup, List.length_map, htracks.length]
  refine ⟨fun record => ?_, fun record => ?_, ?_, ?_⟩
  · rw [htracks.recency]
    simp only [htracks.lookup]
  · rw [htracks.expiry]
    simp only [htracks.lookup]
  · exact hcard useOf (fun _ _ _ _ hsame => congrArg (fun record => (ofLex (ofLex record).2).2) hsame)
      htracks.recency
  · exact hcard expiryOf (fun _ _ _ _ hsame => congrArg (fun record => (ofLex record).2) hsame)
      htracks.expiry

end Tracks

theorem new_tracks (maxEntries : Nat) (ttl : Duration) :
    (new maxEntries ttl : StickyCache Key Proxy).Tracks [] [] := by
  refine ⟨List.nodup_nil, fun key entry => ?_, fun record => ?_, fun record => ?_,
    List.Pairwise.nil, nofun⟩
  · simp [new]
  · simp [new]
  · simp [new]

/-! Taking an entry out. -/

theorem remove_settings (cache : StickyCache Key Proxy) (addr : Key) :
    (cache.remove addr).2.maxEntries = cache.maxEntries ∧
      (cache.remove addr).2.ttl = cache.ttl ∧
      (cache.remove addr).2.nextGeneration = cache.nextGeneration := by
  unfold remove
  split
  · exact ⟨rfl, rfl, rfl⟩
  · exact ⟨rfl, rfl, rfl⟩

theorem remove_key (cache : StickyCache Key Proxy) (addr : Key) :
    (cache.remove addr).1.getD addr = addr := by
  unfold remove
  split
  · rfl
  · rfl

theorem Tracks.remove {cache : StickyCache Key Proxy} {times : List Instant}
    {entries : List (Key × StickyEntry Proxy)} (htracks : cache.Tracks times entries) (addr : Key) :
    (cache.remove addr).2.Tracks times (dropKey entries addr) := by
  have hsub := dropKey_sublist entries addr
  cases hlookup : cache.map.lookup addr with
  | none =>
      have habsent : ∀ pair ∈ entries, pair.1 ≠ addr := by
        rintro ⟨key, entry⟩ hin rfl
        rw [(htracks.lookup _ entry).mpr hin] at hlookup
        cases hlookup
      rw [StickyCache.remove, hlookup, dropKey_absent habsent]
      exact htracks
  | some old =>
      have hold := (htracks.lookup addr old).mp hlookup
      have hrecord {α : Type} [DecidableEq α] {set : Finset α}
          (record : Key → StickyEntry Proxy → α)
          (hinj : ∀ key entry key' entry', record key entry = record key' entry' → key = key')
          (hset : ∀ x, x ∈ set ↔ ∃ key entry, (key, entry) ∈ entries ∧ x = record key entry)
          (x : α) : x ∈ set.erase (record addr old) ↔
            ∃ key entry, (key, entry) ∈ dropKey entries addr ∧ x = record key entry := by
        rw [Finset.mem_erase, hset]
        constructor
        · rintro ⟨hne, key, entry, hin, rfl⟩
          refine ⟨key, entry, mem_dropKey.mpr ⟨hin, ?_⟩, rfl⟩
          rintro rfl
          exact hne (congrArg _ (htracks.unique hin hold))
        · rintro ⟨key, entry, hin, rfl⟩
          obtain ⟨hin, hne⟩ := mem_dropKey.mp hin
          exact ⟨fun hsame => hne (hinj _ _ _ _ hsame), key, entry, hin, rfl⟩
      rw [StickyCache.remove, hlookup]
      refine ⟨htracks.nodup.sublist (hsub.map _), fun key entry => ?_, ?_, ?_,
        htracks.ordered.sublist hsub, fun key entry hin => htracks.past key entry (hsub.subset hin)⟩
      · rw [mem_dropKey]
        by_cases hkey : key = addr
        · subst hkey
          simp
        · rw [AList.lookup_erase_ne hkey, htracks.lookup]
          exact ⟨fun hin => ⟨hin, hkey⟩, And.left⟩
      · exact hrecord useOf
          (fun _ _ _ _ hsame => congrArg (fun record => (ofLex (ofLex record).2).2) hsame)
          htracks.recency
      · exact hrecord expiryOf
          (fun _ _ _ _ hsame => congrArg (fun record => (ofLex record).2) hsame) htracks.expiry

/-! Putting an entry in. -/

def push (cache : StickyCache Key Proxy) (key : Key) (entry : StickyEntry Proxy) :
    StickyCache Key Proxy :=
  { cache with
    map := cache.map.insert key entry
    recency := Insert.insert (useOf key entry) cache.recency
    expiry := Insert.insert (expiryOf key entry) cache.expiry
    nextGeneration := wrappingSucc cache.nextGeneration }

theorem Tracks.push {cache : StickyCache Key Proxy} {times : List Instant}
    {entries : List (Key × StickyEntry Proxy)} (htracks : cache.Tracks times entries) {key : Key}
    (habsent : ∀ pair ∈ entries, pair.1 ≠ key) {entry : StickyEntry Proxy}
    (htime : ∀ time ∈ times, time ≤ entry.lastUsed)
    (hgeneration : entry.generation = cache.nextGeneration)
    (hfits : cache.nextGeneration + 1 < 2 ^ 64) :
    (cache.push key entry).Tracks (times ++ [entry.lastUsed]) (entries ++ [(key, entry)]) := by
  have hnext : wrappingSucc cache.nextGeneration = cache.nextGeneration + 1 := Nat.mod_eq_of_lt hfits
  refine ⟨?_, fun key' entry' => ?_, fun record => ?_, fun record => ?_, ?_, fun key' entry' hin => ?_⟩
  · rw [List.map_append, List.map_singleton, List.nodup_append]
    refine ⟨htracks.nodup, List.nodup_singleton _, ?_⟩
    intro key' hkey' key'' hkey''
    obtain ⟨pair, hin, rfl⟩ := List.mem_map.mp hkey'
    rw [List.mem_singleton.mp hkey'']
    exact habsent pair hin
  · rw [StickyCache.push, List.mem_append, List.mem_singleton]
    by_cases hkey : key' = key
    · subst hkey
      have hnot : ¬ (key', entry') ∈ entries := fun hin => habsent _ hin rfl
      simp [AList.lookup_insert, hnot, eq_comm]
    · rw [AList.lookup_insert_ne hkey, htracks.lookup]
      simp [hkey]
  · rw [StickyCache.push, Finset.mem_insert, htracks.recency]
    simp [or_and_right, exists_or, or_comm]
  · rw [StickyCache.push, Finset.mem_insert, htracks.expiry]
    simp [or_and_right, exists_or, or_comm]
  · rw [List.pairwise_append]
    refine ⟨htracks.ordered, List.pairwise_singleton _ _, ?_⟩
    rintro ⟨key', entry'⟩ hin newer hnewer
    rw [List.mem_singleton.mp hnewer]
    obtain ⟨hused, hless⟩ := htracks.past key' entry' hin
    exact ⟨htime _ hused, hgeneration ▸ hless⟩
  · rw [StickyCache.push, hnext]
    obtain hold | hnew := List.mem_append.mp hin
    · obtain ⟨hused, hless⟩ := htracks.past key' entry' hold
      exact ⟨List.mem_append_left _ hused, Nat.lt_succ_of_lt hless⟩
    · obtain ⟨rfl, rfl⟩ := Prod.mk.inj (List.mem_singleton.mp hnew)
      exact ⟨by simp, hgeneration ▸ Nat.lt_succ_self _⟩

/-! Making room. -/

theorem first_eq_some {α : Type} [LinearOrder α] {set : Finset α} {least : α} :
    first set = some least ↔ least ∈ set ∧ ∀ x ∈ set, least ≤ x := by
  unfold first
  split
  · rename_i hne
    rw [Option.some.injEq]
    constructor
    · rintro rfl
      exact ⟨set.min'_mem hne, fun x hx => set.min'_le x hx⟩
    · rintro ⟨hin, hleast⟩
      exact le_antisymm (set.min'_le _ hin) (hleast _ (set.min'_mem hne))
  · rename_i hempty
    refine iff_of_false (by simp) ?_
    rintro ⟨hin, -⟩
    exact hempty ⟨least, hin⟩

theorem first_eq_none {α : Type} [LinearOrder α] {set : Finset α} :
    first set = none ↔ set = ∅ := by
  unfold first
  split
  · rename_i hne
    simp [hne.ne_empty]
  · rename_i hempty
    simpa using hempty

/-- Who goes: one that has expired, or the first in the list where none has. -/
theorem Tracks.victim {cache : StickyCache Key Proxy} {times : List Instant}
    {entries : List (Key × StickyEntry Proxy)} (htracks : cache.Tracks times entries)
    (hne : entries ≠ []) (now : Instant) :
    (∃ key entry, (key, entry) ∈ entries ∧ entry.expiresAt ≤ now ∧ cache.victim now = some key) ∨
      ∃ key entry rest, entries = (key, entry) :: rest ∧
        (∀ pair ∈ entries, now < pair.2.expiresAt) ∧ cache.victim now = some key := by
  obtain ⟨⟨key, entry⟩, rest, rfl⟩ := List.exists_cons_of_ne_nil hne
  have hsome : ∃ least, first cache.expiry = some least := by
    refine Option.ne_none_iff_exists'.mp fun hnone => ?_
    have hin := (htracks.expiry (expiryOf key entry)).mpr ⟨key, entry, List.mem_cons_self, rfl⟩
    rw [first_eq_none.mp hnone] at hin
    exact absurd hin (Finset.notMem_empty _)
  obtain ⟨least, hleast⟩ := hsome
  obtain ⟨hin, hbelow⟩ := first_eq_some.mp hleast
  obtain ⟨key', entry', hin', rfl⟩ := (htracks.expiry least).mp hin
  by_cases hover : entry'.expiresAt ≤ now
  · refine .inl ⟨key', entry', hin', hover, ?_⟩
    have hfilter : (some (expiryOf key' entry')).filter
        (fun record => decide ((ofLex record).1 ≤ now)) = some (expiryOf key' entry') :=
      if_pos (decide_eq_true hover)
    rw [StickyCache.victim, hleast, hfilter]
    rfl
  · refine .inr ⟨key, entry, rest, rfl, ?_, ?_⟩
    · rintro ⟨key'', entry''⟩ hin''
      have hle := hbelow (expiryOf key'' entry'')
        ((htracks.expiry _).mpr ⟨key'', entry'', hin'', rfl⟩)
      rw [expiryOf, expiryOf, Prod.Lex.toLex_le_toLex] at hle
      have hle' : entry'.expiresAt ≤ entry''.expiresAt :=
        hle.elim Nat.le_of_lt fun hsame => Nat.le_of_eq hsame.1
      exact Nat.lt_of_lt_of_le (Nat.not_le.mp hover) hle'
    · have hfilter : (some (expiryOf key' entry')).filter
          (fun record => decide ((ofLex record).1 ≤ now)) = none :=
        if_neg fun hle => hover (of_decide_eq_true hle)
      have holdest : first cache.recency = some (useOf key entry) := by
        refine first_eq_some.mpr ⟨(htracks.recency _).mpr ⟨key, entry, List.mem_cons_self, rfl⟩, ?_⟩
        intro record hrecord
        obtain ⟨key'', entry'', hin'', rfl⟩ := (htracks.recency record).mp hrecord
        obtain heq | hrest := List.mem_cons.mp hin''
        · obtain ⟨rfl, rfl⟩ := Prod.mk.inj heq
          exact le_refl _
        · obtain ⟨hused, hless⟩ := (List.pairwise_cons.mp htracks.ordered).1 _ hrest
          rw [useOf, useOf, Prod.Lex.toLex_le_toLex]
          obtain hlt | heq := Nat.lt_or_eq_of_le hused
          · exact .inl hlt
          · refine .inr ⟨heq, ?_⟩
            rw [Prod.Lex.toLex_le_toLex]
            exact .inl hless
      rw [StickyCache.victim, hleast, hfilter, holdest]
      rfl

/-! What each operation does to the list. -/

theorem get_hit {cache : StickyCache Key Proxy} {times : List Instant}
    {entries : List (Key × StickyEntry Proxy)} (htracks : cache.Tracks times entries) {addr : Key}
    {entry : StickyEntry Proxy} (hlookup : cache.map.lookup addr = some entry) {now : Instant}
    (hlive : now < entry.expiresAt) :
    cache.get addr now = (some entry.proxy, (cache.remove addr).2.push addr
      { entry with lastUsed := now, generation := cache.nextGeneration }) := by
  have hexpiry : expiryOf addr entry ∈ cache.expiry :=
    (htracks.expiry _).mpr ⟨addr, entry, (htracks.lookup addr entry).mp hlookup, rfl⟩
  have hsame (touched : StickyEntry Proxy) :
      (cache.map.erase addr).insert addr touched = cache.map.insert addr touched := by
    refine AList.ext ?_
    rw [AList.entries_insert, AList.entries_insert]
    congr 1
    exact List.kerase_of_notMem_keys (AList.lookup_eq_none.mp (AList.lookup_erase addr cache.map))
  rw [get, hlookup, remove, hlookup]
  dsimp only
  rw [if_neg (Nat.not_le.mpr hlive), push]
  dsimp only
  rw [hsame]
  congr 2
  exact (Finset.insert_erase hexpiry).symm

def makeRoom (cache : StickyCache Key Proxy) (now : Instant) : StickyCache Key Proxy :=
  if cache.maxEntries ≤ cache.map.keys.length then
    match cache.victim now with
    | some victim => (cache.remove victim).2
    | none => cache
  else cache

theorem makeRoom_settings (cache : StickyCache Key Proxy) (now : Instant) :
    (cache.makeRoom now).maxEntries = cache.maxEntries ∧
      (cache.makeRoom now).ttl = cache.ttl ∧
      (cache.makeRoom now).nextGeneration = cache.nextGeneration := by
  unfold makeRoom
  split
  · split
    · exact remove_settings cache _
    · exact ⟨rfl, rfl, rfl⟩
  · exact ⟨rfl, rfl, rfl⟩

theorem insert_parts {cache : StickyCache Key Proxy} (hroom : cache.maxEntries ≠ 0) (addr : Key)
    (proxy : Proxy) (now : Instant) :
    cache.insert addr proxy now = ((cache.remove addr).2.makeRoom now).push addr
      ⟨proxy, now, (Instant.checkedAdd now cache.ttl).getD now, cache.nextGeneration⟩ := by
  obtain ⟨-, httl, hgeneration⟩ := remove_settings cache addr
  obtain ⟨-, httl', hgeneration'⟩ := makeRoom_settings (cache.remove addr).2 now
  rw [insert, if_neg hroom, push, ← httl, ← httl', ← hgeneration, ← hgeneration']
  dsimp only
  rw [remove_key]
  rfl

/-! The cache as a map. -/

/-- A step of the cache is one of the map, and leaves it with a list again. -/
structure Simulates (cache : StickyCache Key Proxy) (times : List Instant)
    (entries : List (Key × StickyEntry Proxy)) (op : StickyOp Key Proxy)
    (entries' : List (Key × StickyEntry Proxy)) : Prop where
  abstract : Lru.Step cache.maxEntries (entries.map view) (op.abstract cache.ttl)
    (cache.step op).1 (entries'.map view)
  tracks : (cache.step op).2.Tracks (times ++ op.time.toList) entries'
  maxEntries : (cache.step op).2.maxEntries = cache.maxEntries
  ttl : (cache.step op).2.ttl = cache.ttl
  generation : (cache.step op).2.nextGeneration ≤ cache.nextGeneration + 1

theorem Tracks.later {cache : StickyCache Key Proxy} {times : List Instant}
    {entries : List (Key × StickyEntry Proxy)} (htracks : cache.Tracks times entries)
    (more : List Instant) : cache.Tracks (times ++ more) entries where
  nodup := htracks.nodup
  lookup := htracks.lookup
  recency := htracks.recency
  expiry := htracks.expiry
  ordered := htracks.ordered
  past key entry hin :=
    ⟨List.mem_append_left _ (htracks.past key entry hin).1, (htracks.past key entry hin).2⟩

section

variable {cache : StickyCache Key Proxy} {times : List Instant}
  {entries : List (Key × StickyEntry Proxy)}

theorem mem_view (htracks : cache.Tracks times entries) {addr : Key} {entry : StickyEntry Proxy}
    (hlookup : cache.map.lookup addr = some entry) :
    (⟨addr, entry.proxy, entry.expiresAt⟩ : LruEntry Key Proxy Instant) ∈ entries.map view :=
  List.mem_map.mpr ⟨(addr, entry), (htracks.lookup addr entry).mp hlookup, rfl⟩

theorem remove_simulates (htracks : cache.Tracks times entries) (addr : Key) :
    cache.Simulates times entries (.remove addr) (dropKey entries addr) := by
  obtain ⟨hmax, httl, hgeneration⟩ := remove_settings cache addr
  refine ⟨?_, ?_, hmax, httl, ?_⟩
  · rw [← without_view]
    exact .remove
  · exact (htracks.remove addr).later _
  · exact hgeneration ▸ Nat.le_succ _

theorem get_simulates (htracks : cache.Tracks times entries) (addr : Key) {now : Instant}
    (htime : ∀ time ∈ times, time ≤ now) (hfits : cache.nextGeneration + 1 < 2 ^ 64) :
    ∃ entries', cache.Simulates times entries (.get addr now) entries' := by
  cases hlookup : cache.map.lookup addr with
  | none =>
      have hget : cache.get addr now = (none, cache) := by rw [get, hlookup]
      refine ⟨entries, ?_, ?_, ?_, ?_, ?_⟩
      · rw [step, hget]
        refine .miss fun entry hin => ?_
        obtain ⟨⟨key, old⟩, hold, rfl⟩ := List.mem_map.mp hin
        intro hkey
        rw [← hkey] at hlookup
        exact absurd ((htracks.lookup key old).mpr hold) (hlookup ▸ nofun)
      all_goals rw [step, hget]
      · exact htracks.later _
      · exact Nat.le_succ _
  | some entry =>
      by_cases hover : entry.expiresAt ≤ now
      · have hget : cache.get addr now = (none, (cache.remove addr).2) := by
          rw [get, hlookup]
          exact if_pos hover
        obtain ⟨-, htracks', hmax, httl, hgeneration⟩ := remove_simulates htracks addr
        refine ⟨dropKey entries addr, ?_, ?_, ?_, ?_, ?_⟩
        · rw [step, hget, ← without_view]
          exact .expired (mem_view htracks hlookup) hover
        all_goals rw [step, hget]
        · exact (htracks.remove addr).later _
        · exact hmax
        · exact httl
        · exact hgeneration
      · have hlive := Nat.not_le.mp hover
        obtain ⟨hmax, httl, hgeneration⟩ := remove_settings cache addr
        have hget := get_hit htracks hlookup hlive
        refine ⟨dropKey entries addr ++
          [(addr, { entry with lastUsed := now, generation := cache.nextGeneration })],
          ?_, ?_, ?_, ?_, ?_⟩
        · rw [step, hget, List.map_append, ← without_view]
          exact .hit (mem_view htracks hlookup) hlive
        all_goals rw [step, hget]
        · refine (htracks.remove addr).push (fun pair hin => (mem_dropKey.mp hin).2) htime ?_ ?_
          · exact hgeneration.symm
          · rwa [hgeneration]
        · exact hmax
        · exact httl
        · rw [push, hgeneration]
          exact Nat.mod_le _ _

theorem insert_simulates (htracks : cache.Tracks times entries) (addr : Key) (proxy : Proxy)
    {now : Instant} (htime : ∀ time ∈ times, time ≤ now)
    (hrepresentable : now + cache.ttl ≤ Instant.max) (hfits : cache.nextGeneration + 1 < 2 ^ 64) :
    ∃ entries', cache.Simulates times entries (.insert addr proxy now) entries' := by
  by_cases hnone : cache.maxEntries = 0
  · have hinsert : cache.insert addr proxy now = cache := if_pos hnone
    refine ⟨entries, .disabled hnone, ?_, ?_, ?_, ?_⟩
    all_goals rw [step, hinsert]
    · exact htracks.later _
    · exact Nat.le_succ _
  · obtain ⟨hmax, httl, hgeneration⟩ := remove_settings cache addr
    obtain ⟨hmax', httl', hgeneration'⟩ := makeRoom_settings (cache.remove addr).2 now
    have hending : (Instant.checkedAdd now cache.ttl).getD now = now + cache.ttl := by
      rw [Instant.checkedAdd, if_pos hrepresentable]
      rfl
    have hinsert := insert_parts hnone addr proxy now
    rw [hending] at hinsert
    -- what is left of the list once there is room
    obtain ⟨kept, hkept, hsub, hstep⟩ : ∃ kept,
        ((cache.remove addr).2.makeRoom now).Tracks times kept ∧
          kept.Sublist (dropKey entries addr) ∧
          Lru.Step cache.maxEntries (entries.map view) (.insert addr proxy now (now + cache.ttl)) none
            (kept.map view ++ [⟨addr, proxy, now + cache.ttl⟩]) := by
      have hremoved := htracks.remove addr
      have hlength : (Lru.without (entries.map view) addr).length =
          (cache.remove addr).2.map.keys.length := by
        rw [without_view, List.length_map, hremoved.length]
      by_cases hfull : (cache.remove addr).2.maxEntries ≤ (cache.remove addr).2.map.keys.length
      · have hfull' : cache.maxEntries ≤ (Lru.without (entries.map view) addr).length := by
          rw [hlength, ← hmax]
          exact hfull
        have hne : dropKey entries addr ≠ [] := by
          rintro hempty
          rw [without_view, hempty, List.map_nil, List.length_nil, Nat.le_zero] at hfull'
          exact hnone hfull'
        obtain ⟨key, old, hin, hover, hvictim⟩ | ⟨key, old, rest, hcons, hlive, hvictim⟩ :=
          hremoved.victim hne now
        · refine ⟨dropKey (dropKey entries addr) key, ?_, dropKey_sublist _ _, ?_⟩
          · rw [makeRoom, if_pos hfull, hvictim]
            exact hremoved.remove key
          · have hold : view (key, old) ∈ Lru.without (entries.map view) addr := by
              rw [without_view]
              exact List.mem_map_of_mem hin
            rw [← without_view, ← without_view]
            exact .reclaim hfull' hold hover
        · have hrest : dropKey (dropKey entries addr) key = rest := by
            have hnodup := hremoved.nodup
            rw [hcons, List.map_cons, List.nodup_cons] at hnodup
            rw [hcons, dropKey, List.filter_cons_of_neg (by simp)]
            refine List.filter_eq_self.mpr fun pair hpair => ?_
            have hdiffers : pair.1 ≠ key := fun heq =>
              hnodup.1 (List.mem_map.mpr ⟨pair, hpair, heq⟩)
            simpa using hdiffers
          refine ⟨dropKey (dropKey entries addr) key, ?_, dropKey_sublist _ _, ?_⟩
          · rw [makeRoom, if_pos hfull, hvictim]
            exact hremoved.remove key
          · rw [hrest]
            refine .evict hfull' (?_ : _ = view (key, old) :: _) ?_
            · rw [without_view, hcons]
              rfl
            · intro entry hentry
              rw [without_view] at hentry
              obtain ⟨pair, hpair, rfl⟩ := List.mem_map.mp hentry
              exact hlive pair hpair
      · refine ⟨dropKey entries addr, ?_, List.Sublist.refl _, ?_⟩
        · rw [makeRoom, if_neg hfull]
          exact hremoved
        · rw [← without_view]
          refine .room ?_
          rw [hlength, ← hmax]
          exact Nat.not_le.mp hfull
    refine ⟨kept ++ [(addr, ⟨proxy, now, now + cache.ttl, cache.nextGeneration⟩)], ?_, ?_, ?_, ?_, ?_⟩
    · rw [step, List.map_append]
      exact hstep
    all_goals rw [step, hinsert]
    · refine hkept.push (fun pair hin => (mem_dropKey.mp (hsub.subset hin)).2) htime ?_ ?_
      · rw [hgeneration', hgeneration]
      · rwa [hgeneration', hgeneration]
    · exact hmax'.trans hmax
    · exact httl'.trans httl
    · rw [push, hgeneration', hgeneration]
      exact Nat.mod_le _ _

theorem step_simulates (htracks : cache.Tracks times entries) (op : StickyOp Key Proxy)
    (htime : ∀ now, op.time = some now → ∀ time ∈ times, time ≤ now)
    (hrepresentable : ∀ addr proxy now, op = .insert addr proxy now →
      now + cache.ttl ≤ Instant.max)
    (hfits : cache.nextGeneration + 1 < 2 ^ 64) :
    ∃ entries', cache.Simulates times entries op entries' := by
  cases op with
  | get addr now => exact get_simulates htracks addr (htime now rfl) hfits
  | insert addr proxy now =>
      exact insert_simulates htracks addr proxy (htime now rfl) (hrepresentable addr proxy now rfl)
        hfits
  | remove addr => exact ⟨_, remove_simulates htracks addr⟩

end

end StickyCache

end Resocks5.Session
