import Resocks5.Config.MaskInstances

namespace Resocks5.Config

open Resocks5.Foundation
open Resocks5.Net

/-! Nothing aborts the compiler. -/

namespace AllowedClients

def empty : AllowedClients := ⟨false, []⟩

def add (compiled : AllowedClients) : Option Rule → AllowedClients
  | none => { compiled with allowAll := true }
  | some rule => { compiled with rules := compiled.rules ++ [rule] }

end AllowedClients

end Resocks5.Config
