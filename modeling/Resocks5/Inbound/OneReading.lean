import Resocks5.Foundation.LineEnds
import Resocks5.Inbound.StrictlyValid

namespace Resocks5.Inbound

open Resocks5.Foundation
open Resocks5.Net

/-! A head that is strictly valid is read in one way. -/

/-- The request line and the headers under a convention, up to the first empty line. -/
def readLines (ends : LineEnds) (head : Bytes) : HeadLines :=
  match (ends.lines head).takeWhile (!·.isEmpty) with
  | [] => ⟨[], []⟩
  | line :: lines => ⟨line, lines⟩

theorem joined_ends (line : Bytes) (lines : List Bytes) :
    joined (line :: lines) ++ headerEnd = (line :: lines ++ [[]]).flatMap (· ++ crlf) := by
  induction lines generalizing line with
  | nil => simp [joined, headerEnd]
  | cons next lines ih =>
      rw [joined_cons_cons, List.append_assoc, ih next]
      rfl

theorem readLines_joined (ends : LineEnds) {line : Bytes} {lines : List Bytes}
    (hplain : ∀ other ∈ line :: lines, LineEnds.Plain other)
    (hsome : ∀ other ∈ line :: lines, other ≠ []) :
    readLines ends (joined (line :: lines) ++ headerEnd) = ⟨line, lines⟩ := by
  have hall : ∀ other ∈ line :: lines ++ [[]], LineEnds.Plain other := by
    intro other hother
    obtain hother | hother := List.mem_append.mp hother
    · exact hplain other hother
    · rw [List.mem_singleton.mp hother]
      exact ⟨List.not_mem_nil, List.not_mem_nil⟩
  have htake : (line :: lines ++ [[]] ++ [[]]).takeWhile (!·.isEmpty) = line :: lines := by
    rw [List.append_assoc, List.takeWhile_append_of_pos]
    · simp
    · intro other hother
      simpa using hsome other hother
  rw [readLines, joined_ends, ends.lines_plain hall, htake]

/-! The extraction of the fields. -/

section

open StrictHttp

theorem StrictHttp.IsField.plain {name value : Bytes} (hfield : IsField name value) :
    LineEnds.Plain (name ++ 0x3A :: value) := by
  have hvalue : ∀ b : UInt8, isValueByte b = true → b ≠ 0x0D ∧ b ≠ 0x0A :=
    allBytes (by decide +kernel)
  have hbyte : ∀ b ∈ name ++ 0x3A :: value, b ≠ 0x0D ∧ b ≠ 0x0A := by
    intro b hb
    obtain hb | hb := List.mem_append.mp hb
    · obtain ⟨_, hcr, hlf, _⟩ := tchar_not_blank (hfield.token b hb)
      exact ⟨hcr, hlf⟩
    · obtain rfl | hb := List.mem_cons.mp hb
      · decide
      · exact hvalue b (hfield.value b hb)
  exact ⟨fun hmem => (hbyte _ hmem).1 rfl, fun hmem => (hbyte _ hmem).2 rfl⟩

theorem proxyAuthorization_field {name value : Bytes} (hfield : IsField name value) :
    proxyAuthorization (name ++ 0x3A :: value) =
      if name.map toAsciiLower = lit "proxy-authorization" then some (trimAscii value)
      else none := by
  have htrim : trimAscii name = name := by
    refine trimAscii_id (fun b hb => ?_) fun b hb => ?_
    · exact (tchar_not_blank (hfield.token b (List.mem_of_mem_head? hb))).2.2.2
    · exact (tchar_not_blank (hfield.token b (List.mem_of_mem_getLast? hb))).2.2.2
  have hlower : (lit "proxy-authorization").map toAsciiLower = lit "proxy-authorization" := by
    decide
  have hsome : (name ++ 0x3A :: value).isEmpty = false := by simp
  rw [proxyAuthorization, hsome, if_neg Bool.false_ne_true, hfield.split, Option.bind_some]
  dsimp only
  rw [htrim, eqIgnoreAsciiCase, hlower]
  simp only [beq_iff_eq]

theorem authValue_named {headers : List Bytes}
    (hextracts : ∀ line ∈ headers, (proxyAuthorization line).isSome = true ↔
      fieldName line = some (lit "proxy-authorization")) :
    authValue headers = authValue (named (lit "proxy-authorization") headers) := by
  induction headers with
  | nil => rfl
  | cons line headers ih =>
      have hrest := ih fun other hother => hextracts other (List.mem_cons_of_mem line hother)
      have hline := hextracts line List.mem_cons_self
      rw [named, List.filter_cons]
      split
      · rename_i hname
        rw [beq_iff_eq] at hname
        obtain ⟨value, hvalue⟩ := Option.isSome_iff_exists.mp (hline.mpr hname)
        rw [authValue, authValue, hvalue]
      · rename_i hname
        rw [beq_iff_eq] at hname
        have hnone : proxyAuthorization line = none := by
          rw [← Option.not_isSome_iff_eq_none]
          exact fun hsome => hname (hline.mp hsome)
        rw [authValue, hnone]
        exact hrest

/-! The request line. -/

theorem words_cons {line word next : Bytes} {others : List Bytes}
    (hwords : words line = word :: next :: others) :
    ∃ back, splitOnce 0x20 line = some (word, back) ∧ words back = next :: others := by
  induction line generalizing word with
  | nil => cases hwords
  | cons b line ih =>
      rw [words] at hwords
      rw [splitOnce]
      split at hwords
      · rename_i hspace
        obtain ⟨rfl, hback⟩ := List.cons.inj hwords
        exact ⟨line, if_pos hspace, hback⟩
      · rename_i hspace
        rw [if_neg hspace]
        split at hwords
        · cases hwords
        · rename_i front others' hline
          obtain ⟨rfl, rfl⟩ := List.cons.inj hwords
          obtain ⟨back, hsplit, hback⟩ := ih hline
          exact ⟨back, by rw [hsplit]; rfl, hback⟩

theorem words_ne_nil (line : Bytes) : words line ≠ [] := by
  cases line with
  | nil => exact List.cons_ne_nil _ _
  | cons b line =>
      rw [words]
      split
      · exact List.cons_ne_nil _ _
      · split
        · exact List.cons_ne_nil _ _
        · exact List.cons_ne_nil _ _

theorem words_single {line word : Bytes} (hwords : words line = [word]) : line = word := by
  induction line generalizing word with
  | nil => exact (List.cons.inj hwords).1
  | cons b line ih =>
      rw [words] at hwords
      split at hwords
      · exact absurd (List.cons.inj hwords).2 (words_ne_nil line)
      · split at hwords
        · rename_i hnone
          exact absurd hnone (words_ne_nil line)
        · rename_i front others hline
          obtain ⟨rfl, rfl⟩ := List.cons.inj hwords
          rw [ih hline]

theorem split_words {line method target version : Bytes}
    (hwords : words line = [method, target, version]) :
    RequestLine.split line = ⟨method, target, version⟩ := by
  obtain ⟨behind, hmethod, hbehind⟩ := words_cons hwords
  obtain ⟨last, htarget, hlast⟩ := words_cons hbehind
  rw [RequestLine.split, hmethod]
  dsimp only
  rw [htarget, words_single hlast]

theorem StrictHttp.IsRequest.plain {line : Bytes} {headers : List Bytes} {method target version : Bytes}
    (hrequest : IsRequest line headers method target version) :
    (∀ other ∈ line :: headers, LineEnds.Plain other) ∧ ∀ other ∈ line :: headers, other ≠ [] := by
  have hparts : ∀ b ∈ line, isAsciiControl b = false := by
    intro b hb
    by_cases hspace : b = 0x20
    · rw [hspace]
      decide
    · obtain ⟨word, hword, hin⟩ := mem_words hb hspace
      rw [hrequest.words] at hword
      exact (hrequest.parts word hword).2 b hin
  constructor
  · intro other hother
    obtain rfl | hother := List.mem_cons.mp hother
    · exact ⟨fun hmem => absurd (hparts _ hmem) (by decide),
        fun hmem => absurd (hparts _ hmem) (by decide)⟩
    · obtain ⟨name, value, rfl, hfield⟩ := hrequest.fields other hother
      exact hfield.plain
  · intro other hother
    obtain rfl | hother := List.mem_cons.mp hother
    · rintro rfl
      cases hrequest.words
    · obtain ⟨name, value, rfl, _⟩ := hrequest.fields other hother
      simp

end

/-- The only reading of a head. -/
structure OneReading (head : Bytes) (lines : HeadLines) : Prop where
  framed : head = joined (lines.requestLine :: lines.headers) ++ headerEnd
  plain : ∀ line ∈ lines.requestLine :: lines.headers, LineEnds.Plain line
  conventions : ∀ ends, readLines ends head = lines
  host : (named (lit "host") lines.headers).length ≤ 1
  proxyAuthorization : (named (lit "proxy-authorization") lines.headers).length ≤ 1
  extracted : ∀ line ∈ lines.headers, (Inbound.proxyAuthorization line).isSome = true ↔
    line ∈ named (lit "proxy-authorization") lines.headers
  extraction : authValue lines.headers =
    authValue (named (lit "proxy-authorization") lines.headers)
  target : ∃ method target version,
    StrictHttp.words lines.requestLine = [method, target, version] ∧
    RequestLine.split lines.requestLine = ⟨method, target, version⟩ ∧
    ∃ host text port, authority target = some (host, text) ∧ IsPort text port ∧ port ≠ 0 ∧
      HostPort.parse target = some ⟨host, port⟩

/-- A head that is strictly valid has one reading. -/
theorem strict_one_reading {head : Bytes} (hhead : IsHead head)
    (hvalid : StrictHttp.validate (headLines head).requestLine (headLines head).headers = .ok ()) :
    OneReading head (headLines head) := by
  obtain ⟨method, target, version, hrequest⟩ := StrictHttp.validate_eq_ok hvalid
  obtain ⟨hplain, hsome⟩ := hrequest.plain
  obtain ⟨hjoined, _⟩ := head_joined hhead fun hnone =>
    hsome _ List.mem_cons_self (congrArg HeadLines.requestLine hnone)
  have hextracts : ∀ line ∈ (headLines head).headers, (proxyAuthorization line).isSome = true ↔
      fieldName line = some (lit "proxy-authorization") := by
    intro line hline
    obtain ⟨name, value, rfl, hfield⟩ := hrequest.fields line hline
    rw [proxyAuthorization_field hfield, hfield.fieldName, Option.some.injEq]
    split
    · rename_i hname
      exact iff_of_true rfl hname
    · rename_i hname
      exact iff_of_false Bool.false_ne_true hname
  refine ⟨hjoined, hplain, fun ends => ?_, hrequest.host, hrequest.proxyAuthorization, ?_,
    authValue_named hextracts, method, target, version, hrequest.words,
    split_words hrequest.words, ?_⟩
  · have hread := readLines_joined ends hplain hsome
    rwa [← hjoined] at hread
  · intro line hline
    rw [hextracts line hline, named, List.mem_filter, beq_iff_eq]
    exact (and_iff_right hline).symm
  · obtain ⟨host, text, port, hauthority, hport, hzero, hgrammar⟩ := hrequest.target
    exact ⟨host, text, port, hauthority, hport, hzero, HostPort.parse_grammar hgrammar⟩

def strictHead : Bytes :=
  lit "CONNECT a%2Db:443 HTTP/1.1" ++ crlf ++ lit "Host: a-b:443" ++ crlf ++
    lit "proxy-AUTHORIZATION: Basic Og==" ++ headerEnd

theorem strict_one_reading_credentials :
    OneReading strictHead (headLines strictHead) ∧
      readLines .bareLf strictHead = readLines .bareCr strictHead := by
  have hread : OneReading strictHead (headLines strictHead) :=
    strict_one_reading ⟨by decide +kernel, by decide⟩ (by decide +kernel)
  exact ⟨hread, (hread.conventions _).trans (hread.conventions _).symm⟩

end Resocks5.Inbound
