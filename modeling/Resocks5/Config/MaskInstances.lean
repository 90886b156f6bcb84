import Resocks5.Config.Ipv6Masks

namespace Resocks5.Config

open Resocks5.Foundation
open Resocks5.Net

end Resocks5.Config
