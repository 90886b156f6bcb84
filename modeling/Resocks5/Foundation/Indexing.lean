import Resocks5.Foundation.Bytes

namespace Resocks5.Foundation

/-! Reading a slice at positions. A position that is checked and missed gives up; one that is not
checked panics. -/

inductive Stop where
  | absent
  | panicked
  deriving DecidableEq, Repr

abbrev Reader := Except Stop

namespace Reader

def ofOption {α : Type} : Option α → Reader α
  | none => .error .absent
  | some a => .ok a

def demand (condition : Bool) : Reader Unit :=
  if condition then .ok () else .error .absent

/-- `data[i]` -/
def byteAt (data : Bytes) (i : Nat) : Reader UInt8 :=
  match data[i]? with
  | some b => .ok b
  | none => .error .panicked

/-- `data[start..stop]` -/
def slice (data : Bytes) (start stop : Nat) : Reader Bytes :=
  if start ≤ stop ∧ stop ≤ data.length then .ok ((data.drop start).take (stop - start))
  else .error .panicked

/-- `data.get(start..stop)` -/
def getRange (data : Bytes) (start stop : Nat) : Option Bytes :=
  if start ≤ stop ∧ stop ≤ data.length then some ((data.drop start).take (stop - start)) else none

/-- `a - b` -/
def minus (a b : Nat) : Reader Nat :=
  if b ≤ a then .ok (a - b) else .error .panicked

/-- `array[start..stop].copy_from_slice(bytes)` -/
def overwrite (array : Bytes) (start stop : Nat) (bytes : Bytes) : Reader Bytes :=
  if start ≤ stop ∧ stop ≤ array.length ∧ bytes.length = stop - start then
    .ok (array.take start ++ bytes ++ array.drop stop)
  else .error .panicked

variable {α β : Type}

@[simp] theorem ok_bind (a : α) (next : α → Reader β) : (Except.ok a >>= next) = next a := rfl

@[simp] theorem error_bind (stop : Stop) (next : α → Reader β) :
    ((Except.error stop : Reader α) >>= next) = Except.error stop := rfl

@[simp] theorem pure_eq (a : α) : (pure a : Reader α) = .ok a := rfl

@[simp] theorem ofOption_some (a : α) : ofOption (some a) = .ok a := rfl

@[simp] theorem ofOption_none : ofOption (none : Option α) = .error .absent := rfl

@[simp] theorem demand_true : demand true = .ok () := rfl

@[simp] theorem demand_false : demand false = .error .absent := rfl

theorem ofOption_bind (o : Option α) (next : α → Option β) :
    ofOption (o.bind next) = (ofOption o >>= fun a => ofOption (next a)) := by
  cases o with
  | none => rfl
  | some a => rfl

theorem byteAt_eq {data : Bytes} {i : Nat} {b : UInt8} (hb : data[i]? = some b) :
    byteAt data i = .ok b := by
  rw [byteAt, hb]

theorem slice_eq {data : Bytes} {start stop : Nat} (hle : start ≤ stop)
    (hstop : stop ≤ data.length) :
    slice data start stop = .ok ((data.drop start).take (stop - start)) :=
  if_pos ⟨hle, hstop⟩

theorem minus_eq {a b : Nat} (hle : b ≤ a) : minus a b = .ok (a - b) := if_pos hle

theorem getRange_drop {data : Bytes} {pos : Nat} (hpos : pos ≤ data.length) (n : Nat) :
    getRange data pos (pos + n) =
      if n ≤ (data.drop pos).length then some ((data.drop pos).take n) else none := by
  rw [getRange, List.length_drop]
  by_cases hn : n ≤ data.length - pos
  · rw [if_pos ⟨by omega, by omega⟩, if_pos hn, Nat.add_sub_cancel_left]
  · rw [if_neg (by omega), if_neg hn]

theorem getRange_some {data : Bytes} {pos n : Nat} (hn : pos + n ≤ data.length) :
    getRange data pos (pos + n) = some ((data.drop pos).take n) := by
  rw [getRange, if_pos ⟨by omega, hn⟩, Nat.add_sub_cancel_left]

/-! A cursor as a position and as what is left of the slice. -/

def Follows (data : Bytes) (at' : Reader Nat) (rest : Option Bytes) : Prop :=
  (∃ pos, pos ≤ data.length ∧ at' = .ok pos ∧ rest = some (data.drop pos)) ∨
    (at' = .error .absent ∧ rest = none)

theorem Follows.bind {data : Bytes} {at' : Reader Nat} {rest : Option Bytes}
    (hfollows : Follows data at' rest) {next : Nat → Reader α} {next' : Bytes → Option α}
    (hnext : ∀ pos, pos ≤ data.length → next pos = ofOption (next' (data.drop pos))) :
    (at' >>= next) = ofOption (rest.bind next') := by
  rcases hfollows with ⟨pos, hpos, rfl, rfl⟩ | ⟨rfl, rfl⟩
  · exact hnext pos hpos
  · rfl

end Reader

end Resocks5.Foundation
