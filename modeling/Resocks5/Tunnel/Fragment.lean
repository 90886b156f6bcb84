import Resocks5.Foundation.Bytes
import Resocks5.Recovery.TlsRecords

namespace Resocks5.Tunnel

open Resocks5.Foundation

/-! Fragments of a ClientHello. -/

structure FragmentSpec where
  enabled : Bool
  fragmentSize : Nat
  delayMs : Nat
  deriving DecidableEq, Repr

inductive ClientHelloMatch where
  | clientHello
  | other
  | indeterminate
  deriving DecidableEq, Repr

def classifyClientHello (data : Bytes) : ClientHelloMatch :=
  match data with
  | [] => .indeterminate
  | first :: rest =>
    if first ≠ 0x16 then .other
    else
      match rest with
      | [] => .indeterminate
      | second :: rest =>
        if second ≠ 0x03 then .other
        else
          match rest with
          | _ :: _ :: _ :: kind :: _ => if kind = 0x01 then .clientHello else .other
          | _ => .indeterminate

def isTlsClientHello (data : Bytes) : Bool := classifyClientHello data == .clientHello

/-- `slice::chunks`; `fuel` bounds how many there are. -/
def chunks (size : Nat) : Nat → Bytes → List Bytes
  | 0, _ => []
  | _, [] => []
  | fuel + 1, data => data.take size :: chunks size fuel (data.drop size)

theorem chunks_flatten {size fuel : Nat} {data : Bytes} (hsize : 0 < size)
    (hfuel : data.length ≤ fuel) : (chunks size fuel data).flatten = data := by
  induction fuel generalizing data with
  | zero =>
      obtain rfl := List.length_eq_zero_iff.mp (Nat.le_zero.mp hfuel)
      rfl
  | succ fuel ih =>
      cases data with
      | nil => rfl
      | cons b data =>
          rw [chunks, List.flatten_cons, ih, List.take_append_drop]
          · rw [List.length_drop]
            simp only [List.length_cons] at hfuel ⊢
            omega
          · exact List.cons_ne_nil b data

/-- The parts that are written one after the other; `none` is one write with no pause. -/
def FragmentSpec.parts (spec : FragmentSpec) (data : Bytes) : Option (List Bytes) :=
  if spec.enabled && isTlsClientHello data then
    some (chunks (max spec.fragmentSize 1) data.length data)
  else none

end Resocks5.Tunnel
