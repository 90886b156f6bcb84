import Mathlib.Data.List.Nodup
import Mathlib.Order.Lattice

namespace Resocks5.Foundation

/-! A map of bounded size whose entries expire, and in which the least recently used one makes
room for a new one. -/

structure LruEntry (Key Value Time : Type) where
  key : Key
  value : Value
  deadline : Time

inductive LruOp (Key Value Time : Type) where
  | get (key : Key) (now : Time)
  | insert (key : Key) (value : Value) (now deadline : Time)
  | remove (key : Key)

namespace Lru

section

variable {Key Value Time : Type} [DecidableEq Key]

def without (entries : List (LruEntry Key Value Time)) (key : Key) :
    List (LruEntry Key Value Time) :=
  entries.filter fun entry => entry.key ≠ key

theorem mem_without {entries : List (LruEntry Key Value Time)} {key : Key}
    {entry : LruEntry Key Value Time} :
    entry ∈ without entries key ↔ entry ∈ entries ∧ entry.key ≠ key := by
  simp [without, List.mem_filter]

theorem without_sublist (entries : List (LruEntry Key Value Time)) (key : Key) :
    (without entries key).Sublist entries := List.filter_sublist

theorem length_without_lt {entries : List (LruEntry Key Value Time)}
    {entry : LruEntry Key Value Time} (hin : entry ∈ entries) :
    (without entries entry.key).length < entries.length :=
  List.length_filter_lt_length_iff_exists.mpr ⟨entry, hin, by simp⟩

variable [LinearOrder Time]

/-- One operation on the entries, the least recently used of them first, with its result. Which of
several expired entries makes room is left open. -/
inductive Step (capacity : Nat) :
    List (LruEntry Key Value Time) → LruOp Key Value Time → Option Value →
      List (LruEntry Key Value Time) → Prop
  | hit {entries key value now deadline} (hin : ⟨key, value, deadline⟩ ∈ entries)
      (hlive : now < deadline) :
      Step capacity entries (.get key now) (some value)
        (without entries key ++ [⟨key, value, deadline⟩])
  | expired {entries key value now deadline} (hin : ⟨key, value, deadline⟩ ∈ entries)
      (hover : deadline ≤ now) :
      Step capacity entries (.get key now) none (without entries key)
  | miss {entries key now} (habsent : ∀ entry ∈ entries, entry.key ≠ key) :
      Step capacity entries (.get key now) none entries
  | remove {entries key} : Step capacity entries (.remove key) none (without entries key)
  | disabled {entries key value now deadline} (hnone : capacity = 0) :
      Step capacity entries (.insert key value now deadline) none entries
  | room {entries key value now deadline} (hroom : (without entries key).length < capacity) :
      Step capacity entries (.insert key value now deadline) none
        (without entries key ++ [⟨key, value, deadline⟩])
  | reclaim {entries key value now deadline} (hfull : capacity ≤ (without entries key).length)
      {old} (hin : old ∈ without entries key) (hover : old.deadline ≤ now) :
      Step capacity entries (.insert key value now deadline) none
        (without (without entries key) old.key ++ [⟨key, value, deadline⟩])
  | evict {entries key value now deadline} (hfull : capacity ≤ (without entries key).length)
      {oldest rest} (holdest : without entries key = oldest :: rest)
      (hlive : ∀ entry ∈ without entries key, now < entry.deadline) :
      Step capacity entries (.insert key value now deadline) none
        (rest ++ [⟨key, value, deadline⟩])

abbrev Event (Key Value Time : Type) := LruOp Key Value Time × Option Value

/-- The entries after a history, the last event of it first. -/
inductive Run (capacity : Nat) :
    List (Event Key Value Time) → List (LruEntry Key Value Time) → Prop
  | nil : Run capacity [] []
  | cons {events entries op result entries'} (hrun : Run capacity events entries)
      (hstep : Step capacity entries op result entries') :
      Run capacity ((op, result) :: events) entries'

/-- What the last insertion of the key has brought, if it has not been removed since. -/
def lastInsert : List (Event Key Value Time) → Key → Option (Value × Time)
  | [], _ => none
  | (.insert key value _ deadline, _) :: events, wanted =>
    if key = wanted then some (value, deadline) else lastInsert events wanted
  | (.remove key, _) :: events, wanted =>
    if key = wanted then none else lastInsert events wanted
  | (.get _ _, _) :: events, wanted => lastInsert events wanted

def touches (wanted : Key) : Event Key Value Time → Bool
  | (.get key _, result) => key = wanted && result.isSome
  | (.insert key _ _ _, _) => key = wanted
  | (.remove _, _) => false

def sinceUse (events : List (Event Key Value Time)) (key : Key) : Nat :=
  events.findIdx (touches key)

variable {capacity : Nat} {events : List (Event Key Value Time)}
  {entries : List (LruEntry Key Value Time)}

theorem Step.shape {op : LruOp Key Value Time} {result : Option Value}
    {entries' : List (LruEntry Key Value Time)} (hstep : Step capacity entries op result entries') :
    (entries'.Sublist entries ∧ (∀ key, touches key (op, result) = true → capacity = 0)) ∨
      ∃ kept entry, entries' = kept ++ [entry] ∧ kept.Sublist entries ∧
        (∀ other ∈ kept, other.key ≠ entry.key) ∧ ∀ key, touches key (op, result) = true ↔
          entry.key = key := by
  cases hstep with
  | @hit key value now deadline hin hlive =>
      refine .inr ⟨without entries key, ⟨key, value, deadline⟩, rfl, without_sublist _ _,
        fun other hother => (mem_without.mp hother).2, fun key' => ?_⟩
      simp [touches]
  | expired hin hover =>
      exact .inl ⟨without_sublist _ _, fun key htouch => by simp [touches] at htouch⟩
  | miss habsent =>
      exact .inl ⟨List.Sublist.refl _, fun key htouch => by simp [touches] at htouch⟩
  | remove => exact .inl ⟨without_sublist _ _, fun key htouch => by simp [touches] at htouch⟩
  | disabled hnone => exact .inl ⟨List.Sublist.refl _, fun _ _ => hnone⟩
  | @room key value now deadline hroom =>
      refine .inr ⟨without entries key, ⟨key, value, deadline⟩, rfl, without_sublist _ _,
        fun other hother => (mem_without.mp hother).2, fun key' => ?_⟩
      simp [touches]
  | @reclaim key value now deadline hfull old hin hover =>
      refine .inr ⟨without (without entries key) old.key, ⟨key, value, deadline⟩, rfl,
        (without_sublist _ _).trans (without_sublist _ _),
        fun other hother => (mem_without.mp (mem_without.mp hother).1).2, fun key' => ?_⟩
      simp [touches]
  | @evict key value now deadline hfull oldest rest holdest hlive =>
      have hrest : rest.Sublist (without entries key) := holdest ▸ List.sublist_cons_self _ _
      refine .inr ⟨rest, ⟨key, value, deadline⟩, rfl, hrest.trans (without_sublist _ _),
        fun other hother => (mem_without.mp (hrest.subset hother)).2, fun key' => ?_⟩
      simp [touches]

theorem Run.nodup (hrun : Run capacity events entries) : (entries.map LruEntry.key).Nodup := by
  induction hrun with
  | nil => exact List.nodup_nil
  | cons _ hstep ih =>
      obtain ⟨hsub, -⟩ | ⟨kept, entry, rfl, hsub, hother, -⟩ := hstep.shape
      · exact ih.sublist (hsub.map _)
      · rw [List.map_append, List.map_singleton, List.nodup_append]
        refine ⟨ih.sublist (hsub.map _), List.nodup_singleton _, ?_⟩
        intro key hkey key' hkey'
        obtain ⟨other, hin, rfl⟩ := List.mem_map.mp hkey
        rw [List.mem_singleton.mp hkey']
        exact hother other hin

theorem Run.length_le (hrun : Run capacity events entries) : entries.length ≤ capacity := by
  induction hrun with
  | nil => exact Nat.zero_le _
  | @cons events entries op result entries' _ hstep ih =>
      have hless (key : Key) := (without_sublist entries key).length_le
      cases hstep with
      | @hit key value now deadline hin hlive =>
          have hlt := length_without_lt hin
          rw [List.length_append, List.length_singleton]
          exact Nat.le_trans hlt ih
      | expired hin hover => exact Nat.le_trans (hless _) ih
      | miss habsent => exact ih
      | remove => exact Nat.le_trans (hless _) ih
      | disabled hnone => exact ih
      | room hroom =>
          rw [List.length_append, List.length_singleton]
          exact hroom
      | @reclaim key value now deadline hfull old hin hover =>
          have hlt := length_without_lt hin
          rw [List.length_append, List.length_singleton]
          exact Nat.le_trans hlt (Nat.le_trans (hless key) ih)
      | @evict key value now deadline hfull oldest rest holdest hlive =>
          have hlength := congrArg List.length holdest
          rw [List.length_cons] at hlength
          rw [List.length_append, List.length_singleton]
          exact Nat.le_trans (Nat.le_of_eq hlength.symm) (Nat.le_trans (hless key) ih)

theorem Run.lastInsert_eq (hrun : Run capacity events entries) {entry : LruEntry Key Value Time}
    (hin : entry ∈ entries) :
    lastInsert events entry.key = some (entry.value, entry.deadline) := by
  induction hrun generalizing entry with
  | nil => cases hin
  | @cons events entries op result entries' hrun hstep ih =>
      cases hstep with
      | @hit key value now deadline hold hlive =>
          obtain hkept | hnew := List.mem_append.mp hin
          · exact ih (mem_without.mp hkept).1
          · obtain rfl := List.mem_singleton.mp hnew
            exact ih hold
      | expired hold hover => exact ih (mem_without.mp hin).1
      | miss habsent => exact ih hin
      | @remove key =>
          obtain ⟨hold, hne⟩ := mem_without.mp hin
          rw [lastInsert, if_neg (Ne.symm hne)]
          exact ih hold
      | disabled hnone =>
          have hlength := hrun.length_le
          rw [hnone, Nat.le_zero, List.length_eq_zero_iff] at hlength
          rw [hlength] at hin
          cases hin
      | @room key value now deadline hroom =>
          obtain hkept | hnew := List.mem_append.mp hin
          · obtain ⟨hold, hne⟩ := mem_without.mp hkept
            rw [lastInsert, if_neg (Ne.symm hne)]
            exact ih hold
          · obtain rfl := List.mem_singleton.mp hnew
            exact if_pos rfl
      | @reclaim key value now deadline hfull old hout hover =>
          obtain hkept | hnew := List.mem_append.mp hin
          · obtain ⟨hold, hne⟩ := mem_without.mp (mem_without.mp hkept).1
            rw [lastInsert, if_neg (Ne.symm hne)]
            exact ih hold
          · obtain rfl := List.mem_singleton.mp hnew
            exact if_pos rfl
      | @evict key value now deadline hfull oldest rest holdest hlive =>
          obtain hkept | hnew := List.mem_append.mp hin
          · have hrest : entry ∈ without entries key := by
              rw [holdest]
              exact List.mem_cons_of_mem _ hkept
            obtain ⟨hold, hne⟩ := mem_without.mp hrest
            rw [lastInsert, if_neg (Ne.symm hne)]
            exact ih hold
          · obtain rfl := List.mem_singleton.mp hnew
            exact if_pos rfl

theorem Run.recency (hrun : Run capacity events entries) :
    entries.Pairwise fun older newer => sinceUse events newer.key < sinceUse events older.key := by
  have hzero {event : Event Key Value Time} {events : List (Event Key Value Time)} {key : Key}
      (htouch : touches key event = true) : sinceUse (event :: events) key = 0 := by
    rw [sinceUse, List.findIdx_cons, htouch]
    rfl
  have hsucc {event : Event Key Value Time} {events : List (Event Key Value Time)} {key : Key}
      (hother : touches key event ≠ true) :
      sinceUse (event :: events) key = sinceUse events key + 1 := by
    rw [sinceUse, List.findIdx_cons, Bool.eq_false_iff.mpr hother]
    rfl
  induction hrun with
  | nil => exact List.Pairwise.nil
  | @cons events entries op result entries' hrun hstep ih =>
      obtain ⟨hsub, htouch⟩ | ⟨kept, entry, rfl, hsub, hother, htouch⟩ := hstep.shape
      · by_cases hnone : capacity = 0
        · have hlength := hrun.length_le
          rw [hnone, Nat.le_zero, List.length_eq_zero_iff] at hlength
          rw [hlength, List.sublist_nil] at hsub
          rw [hsub]
          exact List.Pairwise.nil
        · have hnever (key : Key) : touches key (op, result) ≠ true :=
            fun hkey => hnone (htouch key hkey)
          refine (ih.sublist hsub).imp fun {older newer} hlt => ?_
          rw [hsucc (hnever _), hsucc (hnever _)]
          exact Nat.succ_lt_succ hlt
      · have hnever {other : LruEntry Key Value Time} (hin : other ∈ kept) :
            touches other.key (op, result) ≠ true :=
          fun hkey => hother other hin ((htouch other.key).mp hkey).symm
        rw [List.pairwise_append]
        refine ⟨?_, List.pairwise_singleton _ _, ?_⟩
        · refine (ih.sublist hsub).imp_of_mem fun {older newer} holder hnewer hlt => ?_
          rw [hsucc (hnever holder), hsucc (hnever hnewer)]
          exact Nat.succ_lt_succ hlt
        · intro older holder newer hnewer
          rw [List.mem_singleton.mp hnewer, hzero ((htouch entry.key).mpr rfl),
            hsucc (hnever holder)]
          exact Nat.succ_pos _

end

end Lru

end Resocks5.Foundation
