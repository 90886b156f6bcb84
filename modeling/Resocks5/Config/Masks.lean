import Resocks5.Config.AllowedClients
import Resocks5.Foundation.Fills
import Resocks5.Net.IpRoundTrip

namespace Resocks5.Config

open Resocks5.Foundation
open Resocks5.Net

/-! What the readers of a part accept. -/

/-- A part and its place. -/
inductive Slot {α : Type} (read : Bytes → Except ElementError α) : Bytes → Option α → Prop
  | free : Slot read [0x2A] none
  | fixed {part : Bytes} {value : α} (hstar : part ≠ [0x2A]) (hread : read part = .ok value) :
      Slot read part (some value)

/-- What the mask demands of the values at its places. -/
def Agrees {α : Type} (segs : List (Option α)) (values : List α) : Prop :=
  List.Forall₂ (fun seg value => ∀ fixed ∈ seg, fixed = value) segs values

end Resocks5.Config
