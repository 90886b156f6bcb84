import Mathlib.Data.List.AList
import Mathlib.Data.List.Pairwise

namespace Resocks5.Foundation

/-! Values in numbered slots, no two of them the same, found again through the hash of what they
are. Different values may share a hash. -/

section

variable {Value Hash : Type} [DecidableEq Hash]

/-- A table from hashes to slots that lists every slot under its hash, and nowhere else. -/
structure Buckets (hash : Value → Hash) where
  slots : List Value
  table : AList fun _ : Hash => List Nat
  filed : ∀ key i, i ∈ (table.lookup key).getD [] ↔ slots[i]?.map hash = some key

namespace Buckets

variable {hash : Value → Hash}

def empty (hash : Value → Hash) : Buckets hash where
  slots := []
  table := ∅
  filed key i := by simp

def bucket (buckets : Buckets hash) (key : Hash) : List Nat :=
  (buckets.table.lookup key).getD []

@[simp] theorem mem_bucket {buckets : Buckets hash} {key : Hash} {i : Nat} :
    i ∈ buckets.bucket key ↔ buckets.slots[i]?.map hash = some key :=
  buckets.filed key i

theorem push_filed (buckets : Buckets hash) (value : Value) (key : Hash) (i : Nat) :
    i ∈ ((buckets.table.insert (hash value)
        (buckets.bucket (hash value) ++ [buckets.slots.length])).lookup key).getD [] ↔
      (buckets.slots ++ [value])[i]?.map hash = some key := by
  have hlast : (buckets.slots ++ [value])[i]?.map hash = some key ↔
      buckets.slots[i]?.map hash = some key ∨ i = buckets.slots.length ∧ hash value = key := by
    obtain hlt | rfl | hgt := Nat.lt_trichotomy i buckets.slots.length
    · rw [List.getElem?_append_left hlt]
      simp [Nat.ne_of_lt hlt]
    · simp
    · rw [List.getElem?_eq_none (by simp; omega), List.getElem?_eq_none (by omega)]
      simp [Nat.ne_of_gt hgt]
  rw [hlast]
  by_cases hkey : key = hash value
  · subst hkey
    rw [AList.lookup_insert]
    simp
  · rw [AList.lookup_insert_ne hkey, buckets.filed key i]
    simp [Ne.symm hkey]

def push (buckets : Buckets hash) (value : Value) : Buckets hash where
  slots := buckets.slots ++ [value]
  table := buckets.table.insert (hash value)
    (buckets.bucket (hash value) ++ [buckets.slots.length])
  filed := push_filed buckets value

variable (same : Value → Value → Bool)

def find? (buckets : Buckets hash) (value : Value) : Option Nat :=
  (buckets.bucket (hash value)).find? fun i => buckets.slots[i]?.any (same value)

def add (buckets : Buckets hash) (value : Value) : Buckets hash :=
  if (buckets.bucket (hash value)).any fun i => buckets.slots[i]?.any (same value) then buckets
  else buckets.push value

def addAll (buckets : Buckets hash) (values : List Value) : Buckets hash :=
  values.foldl (add same) buckets

/-! What no hash changes. -/

/-- Being the same is an equivalence that the hash respects. -/
structure Respects (same : Value → Value → Bool) (hash : Value → Hash) : Prop where
  refl : ∀ a, same a a = true
  symm : ∀ a b, same a b = true → same b a = true
  trans : ∀ a b c, same a b = true → same b c = true → same a c = true
  hash : ∀ a b, same a b = true → hash a = hash b

variable {same} {buckets : Buckets hash}

theorem any_bucket (hsame : Respects same hash) (value : Value) :
    ((buckets.bucket (hash value)).any fun i => buckets.slots[i]?.any (same value)) =
      buckets.slots.any (same value) := by
  rw [Bool.eq_iff_iff, List.any_eq_true, List.any_eq_true]
  constructor
  · rintro ⟨i, -, hi⟩
    obtain ⟨slot, hslot, hvalue⟩ := (Option.any_eq_true _ _).mp hi
    exact ⟨slot, List.mem_of_getElem? hslot, hvalue⟩
  · rintro ⟨slot, hmem, hvalue⟩
    obtain ⟨i, hslot⟩ := List.mem_iff_getElem?.mp hmem
    refine ⟨i, ?_, ?_⟩
    · rw [mem_bucket, hslot, Option.map_some, hsame.hash value slot hvalue]
    · rw [hslot]
      exact hvalue

theorem add_slots (hsame : Respects same hash) (value : Value) :
    (buckets.add same value).slots =
      if buckets.slots.any (same value) then buckets.slots else buckets.slots ++ [value] := by
  rw [add, any_bucket hsame]
  split <;> rfl

/-- The values before which there is none that is the same. -/
def firsts (same : Value → Value → Bool) (values : List Value) : List Value :=
  (List.range values.length).filterMap fun i =>
    values[i]?.filter fun value => !(values.take i).any (same value)

theorem firsts_concat (same : Value → Value → Bool) (values : List Value) (value : Value) :
    firsts same (values ++ [value]) =
      if values.any (same value) then firsts same values else firsts same values ++ [value] := by
  have hfront : (List.range values.length).filterMap (fun i =>
      (values ++ [value])[i]?.filter fun other => !((values ++ [value]).take i).any (same other)) =
      firsts same values := by
    refine List.filterMap_congr fun i hi => ?_
    have hlt : i < values.length := List.mem_range.mp hi
    rw [List.getElem?_append_left hlt, List.take_append_of_le_length (Nat.le_of_lt hlt)]
  have hlast : (values ++ [value])[values.length]?.filter
      (fun other => !((values ++ [value]).take values.length).any (same other)) =
      if values.any (same value) then none else some value := by
    rw [List.getElem?_concat_length, List.take_left]
    cases hany : values.any (same value) <;> simp [Option.filter, hany]
  rw [firsts, List.length_append, List.length_singleton, List.range_succ, List.filterMap_append,
    hfront, List.filterMap_cons, hlast, List.filterMap_nil]
  cases values.any (same value) <;> simp

def Distinct (same : Value → Value → Bool) (slots : List Value) : Prop :=
  slots.Pairwise fun early late => same late early = false

structure Collects (same : Value → Value → Bool) (values : List Value)
    (buckets : Buckets hash) : Prop where
  firsts : buckets.slots = Buckets.firsts same values
  distinct : Distinct same buckets.slots
  covers : ∀ a, buckets.slots.any (same a) = values.any (same a)

theorem Collects.add (hsame : Respects same hash) {values : List Value}
    (hcollects : Collects same values buckets) (value : Value) :
    Collects same (values ++ [value]) (buckets.add same value) := by
  have hslots : (buckets.add same value).slots =
      if buckets.slots.any (same value) then buckets.slots else buckets.slots ++ [value] :=
    add_slots hsame value
  rw [hcollects.covers] at hslots
  constructor
  · rw [hslots, firsts_concat, hcollects.firsts]
  · rw [hslots]
    split
    · exact hcollects.distinct
    · rename_i hnew
      rw [← hcollects.covers, List.any_eq_true, not_exists] at hnew
      refine List.pairwise_append.mpr ⟨hcollects.distinct, List.pairwise_singleton _ _, ?_⟩
      intro early hearly late hlate
      obtain rfl := List.mem_singleton.mp hlate
      exact Bool.eq_false_iff.mpr fun heq => hnew early ⟨hearly, heq⟩
  · intro a
    rw [hslots, List.any_append]
    split
    · rename_i hold
      rw [hcollects.covers, Bool.eq_iff_iff, Bool.or_eq_true]
      refine ⟨.inl, fun hany => hany.elim id fun hlast => ?_⟩
      obtain ⟨old, hmem, heq⟩ := List.any_eq_true.mp hold
      have hvalue : same a value = true := by simpa using hlast
      exact List.any_eq_true.mpr ⟨old, hmem, hsame.trans a value old hvalue heq⟩
    · rw [List.any_append, hcollects.covers]

theorem Collects.addAll (hsame : Respects same hash) {values : List Value}
    (hcollects : Collects same values buckets) (more : List Value) :
    Collects same (values ++ more) (buckets.addAll same more) := by
  induction more generalizing values buckets with
  | nil => simpa [Buckets.addAll] using hcollects
  | cons value more ih =>
      have hstep := ih (hcollects.add hsame value)
      rw [List.append_assoc] at hstep
      exact hstep

theorem collects_ofList (hsame : Respects same hash) (values : List Value) :
    Collects same values ((empty hash).addAll same values) := by
  have hempty : Collects same [] (empty hash) := ⟨rfl, List.Pairwise.nil, fun _ => rfl⟩
  exact hempty.addAll hsame values

omit [DecidableEq Hash] in
theorem Distinct.unique {slots : List Value} (hdistinct : Distinct same slots)
    (hsame : Respects same hash) {value a b : Value} {i j : Nat} (ha : slots[i]? = some a)
    (hb : slots[j]? = some b) (hva : same value a = true) (hvb : same value b = true) :
    i = j := by
  have hab : same a b = true := hsame.trans a value b (hsame.symm value a hva) hvb
  obtain ⟨hi, rfl⟩ := List.getElem?_eq_some_iff.mp ha
  obtain ⟨hj, rfl⟩ := List.getElem?_eq_some_iff.mp hb
  have hpair := List.pairwise_iff_getElem.mp hdistinct
  obtain hlt | heq | hgt := Nat.lt_trichotomy i j
  · have hapart := hpair i j hi hj hlt
    rw [hsame.symm _ _ hab] at hapart
    cases hapart
  · exact heq
  · have hapart := hpair j i hj hi hgt
    rw [hab] at hapart
    cases hapart

theorem find?_some {value : Value} {i : Nat} (hfind : buckets.find? same value = some i) :
    ∃ slot, buckets.slots[i]? = some slot ∧ same value slot = true := by
  unfold find? at hfind
  have hany := List.find?_some hfind
  exact (Option.any_eq_true _ _).mp hany

theorem find?_eq_some (hsame : Respects same hash) (hdistinct : Distinct same buckets.slots)
    {value : Value} {i : Nat} :
    buckets.find? same value = some i ↔
      ∃ slot, buckets.slots[i]? = some slot ∧ same value slot = true := by
  constructor
  · intro hfind
    exact find?_some hfind
  · rintro ⟨slot, hslot, hvalue⟩
    have hbucket : i ∈ buckets.bucket (hash value) := by
      rw [mem_bucket, hslot, Option.map_some, hsame.hash value slot hvalue]
    cases hfind : buckets.find? same value with
    | none =>
        have hmiss := List.find?_eq_none.mp hfind i hbucket
        rw [hslot] at hmiss
        exact absurd hvalue hmiss
    | some j =>
        obtain ⟨other, hother, hsame'⟩ := find?_some hfind
        rw [hdistinct.unique hsame hslot hother hvalue hsame']

end Buckets

end

end Resocks5.Foundation
