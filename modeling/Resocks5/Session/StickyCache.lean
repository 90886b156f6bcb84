import Mathlib.Data.Finset.Max
import Mathlib.Data.List.AList
import Mathlib.Data.Prod.Lex
import Resocks5.Foundation.Timed
import Resocks5.Foundation.LruMap

namespace Resocks5.Session

open Resocks5.Foundation

/-! The cache of the upstream that a target was last reached through. -/

structure StickyEntry (Proxy : Type) where
  proxy : Proxy
  lastUsed : Instant
  expiresAt : Instant
  generation : Nat

/-- The key of a `recency` record: when, which touch, and whose. -/
abbrev Use (Key : Type) := Instant ×ₗ Nat ×ₗ Key

abbrev Expiry (Key : Type) := Instant ×ₗ Key

def first {α : Type} [LinearOrder α] (set : Finset α) : Option α :=
  if hne : set.Nonempty then some (set.min' hne) else none

/-- Each entry owns exactly one recency record and one expiry record. -/
structure StickyCache (Key Proxy : Type) [LinearOrder Key] where
  maxEntries : Nat
  ttl : Duration
  map : AList fun _ : Key => StickyEntry Proxy
  recency : Finset (Use Key)
  expiry : Finset (Expiry Key)
  nextGeneration : Nat

def wrappingSucc (generation : Nat) : Nat := (generation + 1) % 2 ^ 64

namespace StickyCache

variable {Key Proxy : Type} [LinearOrder Key]

def new (maxEntries : Nat) (ttl : Duration) : StickyCache Key Proxy :=
  ⟨maxEntries, ttl, ∅, ∅, ∅, 0⟩

def useOf (key : Key) (entry : StickyEntry Proxy) : Use Key :=
  toLex (entry.lastUsed, toLex (entry.generation, key))

def expiryOf (key : Key) (entry : StickyEntry Proxy) : Expiry Key := toLex (entry.expiresAt, key)

def remove (cache : StickyCache Key Proxy) (addr : Key) : Option Key × StickyCache Key Proxy :=
  match cache.map.lookup addr with
  | none => (none, cache)
  | some entry =>
    (some addr,
      { cache with
        map := cache.map.erase addr
        recency := cache.recency.erase (useOf addr entry)
        expiry := cache.expiry.erase (expiryOf addr entry) })

def get (cache : StickyCache Key Proxy) (addr : Key) (now : Instant) :
    Option Proxy × StickyCache Key Proxy :=
  match cache.map.lookup addr with
  | none => (none, cache)
  | some entry =>
    if entry.expiresAt ≤ now then (none, (cache.remove addr).2)
    else
      let touched := { entry with lastUsed := now, generation := cache.nextGeneration }
      (some entry.proxy,
        { cache with
          map := cache.map.insert addr touched
          recency := Insert.insert (useOf addr touched) (cache.recency.erase (useOf addr entry))
          nextGeneration := wrappingSucc cache.nextGeneration })

/-- An expired entry if there is one, else the least recently used one. -/
def victim (cache : StickyCache Key Proxy) (now : Instant) : Option Key :=
  (((first cache.expiry).filter fun record => (ofLex record).1 ≤ now).map fun record =>
    (ofLex record).2).or
      ((first cache.recency).map fun record => (ofLex (ofLex record).2).2)

def insert (cache : StickyCache Key Proxy) (addr : Key) (proxy : Proxy) (now : Instant) :
    StickyCache Key Proxy :=
  if cache.maxEntries = 0 then cache
  else
    let (key, cache) := cache.remove addr
    let cache :=
      if cache.maxEntries ≤ cache.map.keys.length then
        match cache.victim now with
        | some victim => (cache.remove victim).2
        | none => cache
      else cache
    let key := key.getD addr
    let expiresAt := (Instant.checkedAdd now cache.ttl).getD now
    let entry := ⟨proxy, now, expiresAt, cache.nextGeneration⟩
    { cache with
      map := cache.map.insert key entry
      recency := Insert.insert (useOf key entry) cache.recency
      expiry := Insert.insert (expiryOf key entry) cache.expiry
      nextGeneration := wrappingSucc cache.nextGeneration }

end StickyCache

/-- What the rotator does with its cache. -/
inductive StickyOp (Key Proxy : Type) where
  | get (addr : Key) (now : Instant)
  | insert (addr : Key) (proxy : Proxy) (now : Instant)
  | remove (addr : Key)
  deriving DecidableEq, Repr

namespace StickyOp

variable {Key Proxy : Type}

def addr : StickyOp Key Proxy → Key
  | get addr _ => addr
  | insert addr _ _ => addr
  | remove addr => addr

def time : StickyOp Key Proxy → Option Instant
  | get _ now => some now
  | insert _ _ now => some now
  | remove _ => none

/-- The operation on a map whose entries live for `ttl`. -/
def abstract (ttl : Duration) : StickyOp Key Proxy → LruOp Key Proxy Instant
  | get addr now => .get addr now
  | insert addr proxy now => .insert addr proxy now (now + ttl)
  | remove addr => .remove addr

end StickyOp

namespace StickyCache

variable {Key Proxy : Type} [LinearOrder Key]

def step (cache : StickyCache Key Proxy) : StickyOp Key Proxy → Option Proxy × StickyCache Key Proxy
  | .get addr now => cache.get addr now
  | .insert addr proxy now => (none, cache.insert addr proxy now)
  | .remove addr => (none, (cache.remove addr).2)

def applyAll (cache : StickyCache Key Proxy) (ops : List (StickyOp Key Proxy)) :
    StickyCache Key Proxy :=
  ops.foldl (fun cache op => (cache.step op).2) cache

def history (cache : StickyCache Key Proxy) :
    List (StickyOp Key Proxy) → List (Lru.Event Key Proxy Instant) → List (Lru.Event Key Proxy Instant)
  | [], events => events
  | op :: ops, events =>
    history (cache.step op).2 ops ((op.abstract cache.ttl, (cache.step op).1) :: events)

end StickyCache

end Resocks5.Session
