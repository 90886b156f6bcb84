import Resocks5.Inbound.StrictAgreement

namespace Resocks5.Inbound

open Resocks5.Connect
open Resocks5.Foundation
open Resocks5.Net
open Resocks5.Types
open Prog

/-! The request that the HTTP client writes, read by the HTTP server. -/

theorem splitOnce_space {front : Bytes} (hfront : (0x20 : UInt8) ∉ front) (back : Bytes) :
    splitOnce 0x20 (front ++ lit " " ++ back) = some (front, back) := by
  rw [List.append_assoc]
  exact splitOnce_append hfront back

theorem requestLine_split {target : Bytes} (hspace : (0x20 : UInt8) ∉ target) :
    RequestLine.split (requestLine target) = ⟨lit "CONNECT", target, lit "HTTP/1.1"⟩ := by
  have hline : requestLine target =
      lit "CONNECT" ++ lit " " ++ (target ++ lit " " ++ lit "HTTP/1.1") := by
    rw [List.append_assoc target]
    exact List.append_assoc _ _ _
  rw [RequestLine.split, hline, splitOnce_space (by decide)]
  dsimp only
  rw [splitOnce_space hspace]

theorem checkRequestLine_ok {target : Bytes} (hclean : ∀ b ∈ target, isUnprintable b = false)
    (hparse : (HostPort.parse target).isSome = true) :
    checkRequestLine (requestLine target) = ok target := by
  have hne : target ≠ [] := by
    rintro rfl
    cases hparse
  have hany : target.any isUnprintable = false := List.any_eq_false.mpr (by simpa using hclean)
  have hnone : (HostPort.parse target).isNone = false := by simpa using hparse
  have hversion : (lit "HTTP/").isPrefixOf (lit "HTTP/1.1") = true := by decide
  have hmethod : (lit "CONNECT").isEmpty = false := by decide
  rw [checkRequestLine, requestLine_split (not_mem_clean hclean (by decide))]
  simp [hne, hany, hnone, hversion, hmethod]

theorem proxyAuthorization_host (target : Bytes) : proxyAuthorization (hostLine target) = none := by
  have hsplit : splitOnce 0x3A (lit "Host" ++ 0x3A :: (lit " " ++ target)) =
      some (lit "Host", lit " " ++ target) := splitOnce_append (by decide) _
  have hname : eqIgnoreAsciiCase (trimAscii (lit "Host")) (lit "proxy-authorization") = false := by
    decide
  have hline : hostLine target = lit "Host" ++ 0x3A :: (lit " " ++ target) := by
    rw [hostLine]
    rfl
  rw [proxyAuthorization, hline, hsplit]
  simp [hname]

theorem proxyAuthorization_basic (base64 : Base64) (user password : Bytes) :
    proxyAuthorization (basicLine base64 user password) =
      some (lit "Basic " ++ base64.encode (user ++ 0x3A :: password)) := by
  generalize htoken : base64.encode (user ++ 0x3A :: password) = token
  have hne : token ≠ [] := htoken ▸ base64.encode_ne_nil (by simp)
  have hclean : ∀ b ∈ token, isUnprintable b = false := htoken ▸ encode_clean base64 _
  have htrim : trimAscii (lit "Basic " ++ token) = lit "Basic " ++ token := by
    refine trimAscii_id (fun b hb => ?_) fun b hb => ?_
    · obtain rfl : 0x42 = b := Option.some.inj hb
      decide
    · rw [List.getLast?_append_of_ne_nil _ hne] at hb
      exact clean_not_whitespace (hclean b (List.mem_of_mem_getLast? hb))
  have hname : eqIgnoreAsciiCase (trimAscii (lit "Proxy-Authorization"))
      (lit "proxy-authorization") = true := by decide
  have hline : basicLine base64 user password =
      lit "Proxy-Authorization" ++ 0x3A :: 0x20 :: (lit "Basic " ++ token) := by
    rw [basicLine, htoken]
    rfl
  have hsplit : splitOnce 0x3A
      (lit "Proxy-Authorization" ++ 0x3A :: 0x20 :: (lit "Basic " ++ token)) =
        some (lit "Proxy-Authorization", 0x20 :: (lit "Basic " ++ token)) :=
    splitOnce_append (by decide) _
  rw [proxyAuthorization, hline, hsplit]
  simp [hname, trimAscii_space, htrim]

theorem basicCredentials_ok (base64 : Base64) {user password : Bytes}
    (huser : isUtf8 user = true) (hpassword : isUtf8 password = true)
    (hcolon : (0x3A : UInt8) ∉ user) :
    basicCredentials base64 (lit "Basic " ++ base64.encode (user ++ 0x3A :: password)) =
      ok (user, password) := by
  have hsplit : splitOnce 0x20
      (lit "Basic" ++ 0x20 :: base64.encode (user ++ 0x3A :: password)) =
        some (lit "Basic", base64.encode (user ++ 0x3A :: password)) :=
    splitOnce_append (by decide) _
  have hvalue : lit "Basic " ++ base64.encode (user ++ 0x3A :: password) =
      lit "Basic" ++ 0x20 :: base64.encode (user ++ 0x3A :: password) := rfl
  have hscheme : eqIgnoreAsciiCase (lit "Basic") (lit "Basic") = true := by decide
  have htrim : trim (base64.encode (user ++ 0x3A :: password)) =
      base64.encode (user ++ 0x3A :: password) :=
    trim_graphic fun b hb => base64_graphic (base64.encode_chars _ b hb)
  have hutf8 : isUtf8 (user ++ 0x3A :: password) = true :=
    isUtf8_append huser hpassword
  rw [basicCredentials, hvalue, hsplit]
  simp [hscheme, htrim, base64.decode_encode, hutf8, splitOnce_append hcolon]

theorem authValue_headers (base64 : Base64) (target : Bytes)
    (credentials : Option (Bytes × Bytes)) :
    authValue (headerLines base64 target credentials) =
      ok (credentials.map fun (user, password) =>
        lit "Basic " ++ base64.encode (user ++ 0x3A :: password)) := by
  rw [headerLines, authValue, proxyAuthorization_host]
  dsimp only
  cases credentials with
  | none => rfl
  | some pair =>
      obtain ⟨user, password⟩ := pair
      have hutf8 : isUtf8 (lit "Basic " ++ base64.encode (user ++ 0x3A :: password)) = true := by
        refine isUtf8_append (by decide) (isUtf8_ascii fun b hb => ?_)
        exact graphic_ascii (base64_graphic (base64.encode_chars _ b hb))
      simp only [Option.map_some, Option.toList_some]
      rw [authValue, proxyAuthorization_basic]
      simp [hutf8]

theorem checkStrict_ok {options : ServerOptions} {target : Bytes}
    (hutf8 : isUtf8 target = true) (hclean : ∀ b ∈ target, isUnprintable b = false)
    (hparse : (HostPort.parse target).isSome = true)
    (hstrict : options.strictHttp = true → ∃ host port, port ≠ 0 ∧
      target = HostPort.format host port ∧ StrictHttp.IsStrictHost host)
    (base64 : Base64) (credentials : Option (Bytes × Bytes)) :
    checkStrict options ⟨requestLine target, headerLines base64 target credentials⟩ = ok () := by
  rw [checkStrict]
  split
  · rename_i hon
    obtain ⟨host, port, hport, rfl, hhost⟩ := hstrict hon
    dsimp only
    rw [StrictHttp.validate_request hport hhost hutf8 hclean hparse]
  · rfl

def connectRequestOf (options : ServerOptions) (target : Bytes)
    (credentials : Option (Bytes × Bytes)) (pipeline : Bytes) : IncomingRequest where
  protocol := .http
  target := target
  username := credentials.map Prod.fst
  usernameRaw := none
  credentials :=
    if options.retainCredentials then credentials.map fun (user, password) =>
      Credentials.new user password
    else none
  pipeline := pipeline

theorem serveHead_request {options : ServerOptions} {target : Bytes} {proxy : ProxyNode}
    (hutf8 : isUtf8 target = true) (hclean : ∀ b ∈ target, isUnprintable b = false)
    (hparse : (HostPort.parse target).isSome = true)
    (hstrict : options.strictHttp = true → ∃ host port, port ≠ 0 ∧
      target = HostPort.format host port ∧ StrictHttp.IsStrictHost host)
    (base64 : Base64) (pipeline : Bytes) :
    serveHead base64 options (connectRequest base64 target proxy) pipeline =
      identify base64 options ((sentCredentials proxy).map fun (user, password) =>
          lit "Basic " ++ base64.encode (user ++ 0x3A :: password)) >>= fun identity =>
        ok ⟨.http, target, identity.username, none, identity.retained, pipeline⟩ := by
  have hline : isUtf8 (requestLine target) = true :=
    isUtf8_append (isUtf8_append (by decide) hutf8) (by decide)
  rw [serveHead, connectRequest_eq, headLines_joined (request_isLine hclean base64 _)]
  dsimp only
  rw [hline, checkStrict_ok hutf8 hclean hparse hstrict, checkRequestLine_ok hclean hparse,
    authValue_headers]
  rfl

theorem connectRequest_cons (base64 : Base64) (target : Bytes) (proxy : ProxyNode) :
    ∃ rest, connectRequest base64 target proxy = 0x43 :: rest ∧ rest ≠ [] := ⟨_, rfl, by
  simp⟩

/-- The HTTP server accepts what the HTTP client writes, however it is cut. -/
theorem http_agreement (base64 : Base64) (options : ServerOptions)
    (granted : Credentials → Bool) (target : Bytes) (proxy : ProxyNode) (following : Bytes)
    (hutf8 : isUtf8 target = true) (hclean : ∀ b ∈ target, isUnprintable b = false)
    (hparse : (HostPort.parse target).isSome = true)
    (hcredentials : ∀ user password, sentCredentials proxy = some (user, password) →
      isUtf8 user = true ∧ isUtf8 password = true ∧ (0x3A : UInt8) ∉ user)
    (hgranted : ∀ user password, sentCredentials proxy = some (user, password) →
      granted (Credentials.new user password) = true)
    (hmethod : if (sentCredentials proxy).isSome then options.password = true
      else options.anonymous = true)
    (hsize : (connectRequest base64 target proxy).length ≤ maxHeaderBytes)
    (hstrict : options.strictHttp = true → ∃ host port, port ≠ 0 ∧
      target = HostPort.format host port ∧ StrictHttp.IsStrictHost host) :
    writeConnectRequest base64 target proxy = writeAll (connectRequest base64 target proxy) ∧
      Inevitably (Feed granted)
        (fun state => ∃ pipeline, pipeline ++ state.2 = following ∧
          state.1 = ok (connectRequestOf options target (sentCredentials proxy) pipeline))
        (accept base64 options, connectRequest base64 target proxy ++ following) := by
  refine ⟨if_neg (by simpa using hclean), ?_⟩
  have hhead : IsHead (connectRequest base64 target proxy) := by
    rw [connectRequest_eq]
    exact isHead_joined (request_isLine hclean base64 _)
  obtain ⟨tail, hcons, htail⟩ := connectRequest_cons base64 target proxy
  simp only [accept, readSome, read_bind, ok_bind]
  refine Feed.read Nat.one_pos (by simp [hcons]) fun chunk rest hcut hchunk hle => ?_
  obtain ⟨b, rfl⟩ := List.length_eq_one_iff.mp
    (Nat.le_antisymm hle (List.length_pos_iff.mpr hchunk))
  obtain rfl : 0x43 = b := by
    rw [hcons] at hcut
    exact (List.cons.inj hcut).1
  show Inevitably _ _ (http base64 options 0x43, rest)
  refine readHead_feed hhead hsize _ (fun pipeline left hpipeline => ?_) hcut.symm ?_
  · dsimp only
    rw [serveHead_request hutf8 hclean hparse hstrict]
    cases hsent : sentCredentials proxy with
    | none =>
        have hanonymous : options.anonymous = true := by simpa [hsent] using hmethod
        refine .now ⟨pipeline, hpipeline, ?_⟩
        simp [identify, hanonymous, Identity.unknown, connectRequestOf]
    | some pair =>
        obtain ⟨user, password⟩ := pair
        obtain ⟨huser, hpassword, hcolon⟩ := hcredentials user password hsent
        have hallowed : options.password = true := by simpa [hsent] using hmethod
        simp only [identify, Option.map_some, basicCredentials_ok base64 huser hpassword hcolon,
          ok_bind, verifyBasic, hallowed, Bool.not_true, Bool.false_eq_true, if_false, call,
          ask_bind]
        refine Feed.call (.now ⟨pipeline, hpipeline, ?_⟩)
        simp [hgranted user password hsent, connectRequestOf]
  · rw [hcons]
    exact Nat.succ_lt_succ (List.length_pos_iff.mpr htail)

def sampleProxy : ProxyNode :=
  ⟨.http, lit "proxy", 8080, some (lit "user"), some (lit "pass:word"), 0⟩

/-- Credentials, in front of the strict server. -/
theorem http_agreement_strict :
    writeConnectRequest Base64.standard (lit "[::1]:443") sampleProxy =
        writeAll (connectRequest Base64.standard (lit "[::1]:443") sampleProxy) ∧
      Inevitably (Feed fun _ => true)
        (fun state => ∃ pipeline, pipeline ++ state.2 = lit "hello" ∧
          state.1 = ok (connectRequestOf ⟨false, true, true, false, true⟩ (lit "[::1]:443")
            (sentCredentials sampleProxy) pipeline))
        (accept Base64.standard ⟨false, true, true, false, true⟩,
          connectRequest Base64.standard (lit "[::1]:443") sampleProxy ++ lit "hello") := by
  refine http_agreement Base64.standard ⟨false, true, true, false, true⟩ (fun _ => true)
    (lit "[::1]:443") sampleProxy (lit "hello") (by decide) (by decide +kernel)
    (by decide +kernel) ?_ (fun _ _ _ => rfl) rfl
    (by decide +kernel) fun _ => ⟨lit "::1", 443, by decide, by decide +kernel, .inr (.inl ?_)⟩
  · intro user password hsent
    cases hsent
    decide
  · decide +kernel

end Resocks5.Inbound
