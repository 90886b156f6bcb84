import Resocks5.Connect.ConnectResponse
import Resocks5.Inbound.HttpHead

namespace Resocks5.Inbound

open Resocks5.Connect
open Resocks5.Foundation
open Resocks5.Types

/-! The lines of the request that the HTTP client writes. -/

def requestLine (target : Bytes) : Bytes := lit "CONNECT " ++ target ++ lit " HTTP/1.1"

def hostLine (target : Bytes) : Bytes := lit "Host: " ++ target

def basicLine (base64 : Base64) (user password : Bytes) : Bytes :=
  lit "Proxy-Authorization: Basic " ++ base64.encode (user ++ 0x3A :: password)

def headerLines (base64 : Base64) (target : Bytes) (credentials : Option (Bytes × Bytes)) :
    List Bytes :=
  hostLine target :: (credentials.map fun (user, password) =>
    basicLine base64 user password).toList

theorem connectRequest_eq (base64 : Base64) (target : Bytes) (proxy : ProxyNode) :
    connectRequest base64 target proxy =
      joined (requestLine target :: headerLines base64 target (sentCredentials proxy)) ++
        headerEnd := by
  unfold connectRequest headerLines
  cases sentCredentials proxy with
  | none => simp [joined, authorizationLine, headerEnd, requestLine, hostLine]
  | some pair => simp [joined, authorizationLine, headerEnd, requestLine, hostLine, basicLine]

/-! What is not in the texts. -/

theorem clean_ne {b c : UInt8} (hb : isUnprintable b = false) (hc : isUnprintable c = true) :
    b ≠ c := by
  rintro rfl
  rw [hc] at hb
  cases hb

theorem not_mem_clean {text : Bytes} (hclean : ∀ b ∈ text, isUnprintable b = false) {c : UInt8}
    (hc : isUnprintable c = true) : c ∉ text := fun hmem => clean_ne (hclean c hmem) hc rfl

theorem base64_graphic {b : UInt8} (hb : isBase64Char b = true) : isGraphic b = true := by
  grind [isBase64Char, isAsciiAlphanumeric, isAsciiDigit, isGraphic]

theorem encode_clean (base64 : Base64) (bytes : Bytes) :
    ∀ b ∈ base64.encode bytes, isUnprintable b = false := fun b hb =>
  graphic_clean (base64_graphic (base64.encode_chars bytes b hb))

theorem isLine_append {front back : Bytes} (hfront : IsLine front)
    (hback : (0x0D : UInt8) ∉ back) : IsLine (front ++ back) :=
  ⟨by simp [hfront.1], by simp [hfront.2, hback]⟩

theorem request_isLine {target : Bytes} (hclean : ∀ b ∈ target, isUnprintable b = false)
    (base64 : Base64) (credentials : Option (Bytes × Bytes)) :
    ∀ line ∈ requestLine target :: headerLines base64 target credentials, IsLine line := by
  have hcr : (0x0D : UInt8) ∉ target := not_mem_clean hclean (by decide)
  intro line hline
  obtain rfl | hline := List.mem_cons.mp hline
  · exact isLine_append (isLine_append ⟨by decide, by decide⟩ hcr) (by decide)
  · obtain rfl | hline := List.mem_cons.mp hline
    · exact isLine_append ⟨by decide, by decide⟩ hcr
    · cases credentials with
      | none => cases hline
      | some pair =>
          obtain rfl := List.mem_singleton.mp hline
          exact isLine_append ⟨by decide, by decide⟩
            (not_mem_clean (encode_clean base64 _) (by decide))

theorem trimAscii_clean {text : Bytes} (hclean : ∀ b ∈ text, isUnprintable b = false) :
    trimAscii text = text :=
  trimAscii_id (fun b hb => clean_not_whitespace (hclean b (List.mem_of_mem_head? hb)))
    fun b hb => clean_not_whitespace (hclean b (List.mem_of_mem_getLast? hb))

end Resocks5.Inbound
