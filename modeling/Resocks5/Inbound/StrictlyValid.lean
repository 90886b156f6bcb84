import Resocks5.Inbound.StrictAgreement
import Resocks5.Net.HostPortGrammar

namespace Resocks5.Inbound

open Resocks5.Foundation
open Resocks5.Net

/-! What has been checked of a request that the strict validation takes. -/

def fieldName (line : Bytes) : Option Bytes :=
  (splitOnce 0x3A line).map fun (name, _) => name.map toAsciiLower

def named (name : Bytes) (headers : List Bytes) : List Bytes :=
  headers.filter fun line => fieldName line == some name

/-- The host and the port of a target, as the validation takes it apart. -/
def authority : Bytes → Option (Bytes × Bytes)
  | 0x5B :: rest =>
    (splitOnce 0x5D rest).bind fun (inside, after) =>
      match after with
      | 0x3A :: port => some (inside, port)
      | _ => none
  | target => rsplitOnce 0x3A target

namespace StrictHttp

def isValueByte (b : UInt8) : Bool := !((b < 0x20 && b != 0x09) || b == 0x7F)

structure IsField (name value : Bytes) : Prop where
  nonempty : name ≠ []
  token : ∀ b ∈ name, isTchar b = true
  value : ∀ b ∈ value, isValueByte b = true

theorem bind_eq_ok {α β : Type} {check : Verdict α} {next : α → Verdict β} {result : β} :
    check.bind next = .ok result ↔ ∃ value, check = .ok value ∧ next value = .ok result := by
  cases check with
  | error violation => simp [Except.bind]
  | ok value => simp [Except.bind]

theorem mem_words {line : Bytes} {b : UInt8} (hb : b ∈ line) (hspace : b ≠ 0x20) :
    ∃ word ∈ words line, b ∈ word := by
  induction line with
  | nil => cases hb
  | cons first rest ih =>
      have hrest : b ∈ rest → ∃ word ∈ words rest, b ∈ word := ih
      rw [words]
      split
      · rename_i hfirst
        have hmem := (List.mem_cons.mp hb).resolve_left fun heq => hspace (heq.trans hfirst)
        obtain ⟨word, hword, hin⟩ := hrest hmem
        exact ⟨word, List.mem_cons_of_mem _ hword, hin⟩
      · split
        · rename_i hnone
          obtain rfl | hmem := List.mem_cons.mp hb
          · exact ⟨[b], List.mem_cons_self, List.mem_cons_self⟩
          · obtain ⟨word, hword, _⟩ := hrest hmem
            rw [hnone] at hword
            cases hword
        · rename_i word others hwords
          obtain rfl | hmem := List.mem_cons.mp hb
          · exact ⟨b :: word, List.mem_cons_self, List.mem_cons_self⟩
          · obtain ⟨word', hword', hin⟩ := hrest hmem
            rw [hwords] at hword'
            obtain rfl | hothers := List.mem_cons.mp hword'
            · exact ⟨_, List.mem_cons_self, List.mem_cons_of_mem _ hin⟩
            · exact ⟨word', List.mem_cons_of_mem _ hothers, hin⟩

theorem tchar_not_blank {b : UInt8} (hb : isTchar b = true) :
    b ≠ 0x3A ∧ b ≠ 0x0D ∧ b ≠ 0x0A ∧ isAsciiWhitespace b = false := by
  have hall : ∀ b : UInt8, isTchar b = true →
      b ≠ 0x3A ∧ b ≠ 0x0D ∧ b ≠ 0x0A ∧ isAsciiWhitespace b = false := allBytes (by decide +kernel)
  exact hall b hb

theorem IsField.split {name value : Bytes} (hfield : IsField name value) :
    splitOnce 0x3A (name ++ 0x3A :: value) = some (name, value) :=
  splitOnce_append (fun hmem => (tchar_not_blank (hfield.token _ hmem)).1 rfl) value

theorem IsField.fieldName {name value : Bytes} (hfield : IsField name value) :
    fieldName (name ++ 0x3A :: value) = some (name.map toAsciiLower) := by
  rw [Inbound.fieldName, hfield.split]
  rfl

theorem checkHeader_eq_ok {line : Bytes} {seen after : Seen}
    (hcheck : checkHeader line seen = .ok after) :
    (∃ name value, line = name ++ 0x3A :: value ∧ IsField name value) ∧
      after.hostCount = seen.hostCount + (named (lit "host") [line]).length ∧
      after.proxyAuthCount =
        seen.proxyAuthCount + (named (lit "proxy-authorization") [line]).length := by
  rw [checkHeader] at hcheck
  split at hcheck
  · cases hcheck
  · split at hcheck
    · cases hcheck
    · rename_i name value hsplit
      obtain ⟨rfl, _⟩ := splitOnce_eq_some.mp hsplit
      split at hcheck
      · cases hcheck
      · rename_i hsome
        split at hcheck
        · cases hcheck
        · split at hcheck
          · cases hcheck
          · rename_i htoken
            split at hcheck
            · cases hcheck
            · rename_i hvalue
              have hfield : IsField name value := by
                refine ⟨by simpa using hsome, by simpa using htoken, fun b hb => ?_⟩
                rw [isValueByte, Bool.not_eq_true']
                refine Bool.eq_false_iff.mpr ?_
                exact List.any_eq_false.mp (Bool.eq_false_iff.mpr hvalue) b hb
              refine ⟨⟨name, value, rfl, hfield⟩, ?_⟩
              have hname := hfield.fieldName
              simp only [named, List.filter_cons, List.filter_nil, hname, beq_iff_eq,
                Option.some.injEq]
              split at hcheck
              · rename_i hhost
                obtain rfl := Except.ok.inj hcheck
                rw [if_pos hhost, if_neg (by rw [hhost]; decide)]
                exact ⟨rfl, rfl⟩
              · rename_i hhost
                rw [if_neg hhost]
                split at hcheck
                · rename_i hauth
                  obtain rfl := Except.ok.inj hcheck
                  rw [if_pos hauth]
                  exact ⟨rfl, rfl⟩
                · rename_i hauth
                  obtain rfl := Except.ok.inj hcheck
                  rw [if_neg hauth]
                  exact ⟨rfl, rfl⟩

theorem checkHeaders_eq_ok {lines : List Bytes} {seen after : Seen}
    (hcheck : checkHeaders lines seen = .ok after) :
    (∀ line ∈ lines, ∃ name value, line = name ++ 0x3A :: value ∧ IsField name value) ∧
      after.hostCount = seen.hostCount + (named (lit "host") lines).length ∧
      after.proxyAuthCount =
        seen.proxyAuthCount + (named (lit "proxy-authorization") lines).length := by
  induction lines generalizing seen with
  | nil =>
      obtain rfl := Except.ok.inj hcheck
      exact ⟨nofun, rfl, rfl⟩
  | cons line lines ih =>
      rw [checkHeaders, bind_eq_ok] at hcheck
      obtain ⟨middle, hline, hrest⟩ := hcheck
      obtain ⟨hfield, hhost, hauth⟩ := checkHeader_eq_ok hline
      obtain ⟨hfields, hhosts, hauths⟩ := ih hrest
      have hcons (name : Bytes) : (named name (line :: lines)).length =
          (named name [line]).length + (named name lines).length := by
        rw [named, ← List.singleton_append, List.filter_append, List.length_append]
        rfl
      refine ⟨fun other hother => ?_, ?_, ?_⟩
      · obtain rfl | hother := List.mem_cons.mp hother
        · exact hfield
        · exact hfields other hother
      · rw [hcons, hhosts, hhost, Nat.add_assoc]
      · rw [hcons, hauths, hauth, Nat.add_assoc]

theorem authorityPort_eq_ok {target port : Bytes} (hcheck : authorityPort target = .ok port) :
    ∃ front host, target = front ++ 0x3A :: port ∧ HostForm front host ∧
      ((0x3A : UInt8) ∉ port → authority target = some (host, port)) := by
  unfold authorityPort at hcheck
  split at hcheck
  · rename_i rest
    split at hcheck
    · cases hcheck
    · rename_i inside after hsplit
      obtain ⟨rfl, _⟩ := splitOnce_eq_some.mp hsplit
      split at hcheck
      · cases hcheck
      · rename_i hv6
        split at hcheck
        · obtain rfl := Except.ok.inj hcheck
          refine ⟨0x5B :: inside ++ [0x5D], inside, by simp, .bracketed ?_, fun _ => ?_⟩
          · simpa [Option.isSome_iff_ne_none] using hv6
          · rw [authority, hsplit]
            rfl
        · cases hcheck
  · rename_i hplain
    split at hcheck
    · cases hcheck
    · rename_i host text hsplit
      obtain ⟨rfl, _⟩ := rsplitOnce_eq_some.mp hsplit
      split at hcheck
      · cases hcheck
      · rename_i hsome
        split at hcheck
        · cases hcheck
        · rename_i hcolon
          split at hcheck
          · cases hcheck
          · obtain rfl := Except.ok.inj hcheck
            refine ⟨host, host, rfl, .name (by simpa using hsome) ?_ ?_, fun _ => ?_⟩
            · simpa using hcolon
            · intro hhead
              obtain ⟨rest, rfl⟩ := List.head?_eq_some_iff.mp hhead
              exact hplain _ rfl
            · unfold authority
              split
              · rename_i heq
                exact absurd heq (hplain _)
              · exact hsplit

theorem checkPort_eq_ok {text : Bytes} (hcheck : checkPort text = .ok ()) :
    ∃ port : UInt16, IsPort text port ∧ port ≠ 0 := by
  rw [checkPort] at hcheck
  split at hcheck
  · cases hcheck
  · rename_i hshape
    dsimp only at hcheck
    split at hcheck
    · rename_i hrange
      simp only [Bool.or_eq_true, not_or, Bool.not_eq_true, Bool.not_eq_false',
        List.all_eq_true, List.isEmpty_eq_false_iff] at hshape
      refine ⟨(numeralValue 10 text).toUInt16, ⟨hshape.1.1, hshape.2, ?_⟩, fun hzero => ?_⟩
      · simp [Nat.mod_eq_of_lt (show numeralValue 10 text < 65536 by omega)]
      · have hvalue := congrArg UInt16.toNat hzero
        simp [Nat.mod_eq_of_lt (show numeralValue 10 text < 65536 by omega)] at hvalue
        omega
    · cases hcheck

theorem checkSeen_eq_ok {version : Bytes} {seen : Seen}
    (hcheck : checkSeen version seen = .ok ()) :
    seen.hostCount ≤ 1 ∧ seen.proxyAuthCount ≤ 1 := by
  rw [checkSeen] at hcheck
  split at hcheck
  · cases hcheck
  · split at hcheck
    · cases hcheck
    · rename_i hhost
      split at hcheck
      · cases hcheck
      · split at hcheck
        · cases hcheck
        · split at hcheck
          · cases hcheck
          · rename_i hauth
            exact ⟨Nat.not_lt.mp hhost, Nat.not_lt.mp hauth⟩

/-- The target is a host and a port from 1 to 65535, and is taken apart as these. -/
def IsTarget (target host text : Bytes) (port : UInt16) : Prop :=
  authority target = some (host, text) ∧ IsPort text port ∧ port ≠ 0 ∧
    HostPort.Grammar target ⟨host, port⟩

/-- What an accepted request is. -/
structure IsRequest (line : Bytes) (headers : List Bytes) (method target version : Bytes) :
    Prop where
  words : words line = [method, target, version]
  parts : ∀ part ∈ [method, target, version], part ≠ [] ∧ ∀ b ∈ part, isAsciiControl b = false
  target : ∃ host text port, IsTarget target host text port
  fields : ∀ header ∈ headers, ∃ name value, header = name ++ 0x3A :: value ∧ IsField name value
  host : (named (lit "host") headers).length ≤ 1
  proxyAuthorization : (named (lit "proxy-authorization") headers).length ≤ 1

theorem validate_eq_ok {line : Bytes} {headers : List Bytes}
    (hvalid : validate line headers = .ok ()) :
    ∃ method target version, IsRequest line headers method target version := by
  rw [validate] at hvalid
  split at hvalid
  · rename_i method target version hwords
    split at hvalid
    · cases hvalid
    · rename_i hparts
      split at hvalid
      · cases hvalid
      · split at hvalid
        · cases hvalid
        · obtain ⟨text, hauthority, hvalid⟩ := bind_eq_ok.mp hvalid
          obtain ⟨_, hport, hvalid⟩ := bind_eq_ok.mp hvalid
          obtain ⟨seen, hheaders, hseen⟩ := bind_eq_ok.mp hvalid
          obtain ⟨front, host, rfl, hform, htarget⟩ := authorityPort_eq_ok hauthority
          obtain ⟨port, hdigits, hzero⟩ := checkPort_eq_ok hport
          obtain ⟨hfields, hhosts, hauths⟩ := checkHeaders_eq_ok hheaders
          obtain ⟨hhost, hauth⟩ := checkSeen_eq_ok hseen
          refine ⟨method, _, version, hwords, fun part hpart => ?_,
            ⟨host, text, port, htarget hdigits.no_colon, hdigits, hzero, .mk hform hdigits⟩,
            hfields, ?_, ?_⟩
          · have hclean := List.any_eq_false.mp (Bool.eq_false_iff.mpr hparts) part hpart
            rw [Bool.or_eq_true, not_or, List.isEmpty_iff, Bool.not_eq_true] at hclean
            refine ⟨hclean.1, fun b hb => ?_⟩
            have hbyte := List.any_eq_false.mp hclean.2 b hb
            rw [Bool.or_eq_true, not_or] at hbyte
            exact Bool.eq_false_iff.mpr hbyte.2
          · simpa [hhosts] using hhost
          · simpa [hauths] using hauth
  · cases hvalid

end StrictHttp

end Resocks5.Inbound
