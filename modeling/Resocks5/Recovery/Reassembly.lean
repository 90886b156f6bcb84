import Resocks5.Recovery.Stability
import Mathlib.Algebra.Group.Nat.Defs

namespace Resocks5.Recovery

open Resocks5.Foundation

/-! A handshake message that is split into records comes together again. -/

def be16 (n : Nat) : Bytes := [(n / 256).toUInt8, (n % 256).toUInt8]

def be24 (n : Nat) : Bytes := [(n / 65536).toUInt8, (n / 256 % 256).toUInt8, (n % 256).toUInt8]

structure Fragment where
  major : UInt8
  minor : UInt8
  payload : Bytes
  fits : payload.length ≤ 65535

def Fragment.bytes (fragment : Fragment) : Bytes :=
  handshake :: fragment.major :: fragment.minor :: be16 fragment.payload.length ++ fragment.payload

def framing (fragments : List Fragment) : Bytes := fragments.flatMap Fragment.bytes

/-- The bytes of the message among the first `n` bytes of the framing. -/
def present : Nat → List Fragment → Bytes
  | _, [] => []
  | n, fragment :: rest =>
    fragment.payload.take (n - 5) ++ present (n - (5 + fragment.payload.length)) rest

theorem beU16_be16 {n : Nat} (hn : n ≤ 65535) :
    beU16 (n / 256).toUInt8 (n % 256).toUInt8 = n := by
  have hhigh : n / 256 < 256 := by omega
  have hlow : n % 256 < 256 := Nat.mod_lt _ (by omega)
  rw [beU16, Nat.toUInt8_eq, Nat.toUInt8_eq, UInt8.toNat_ofNat_of_lt' hhigh,
    UInt8.toNat_ofNat_of_lt' hlow, Nat.mul_comm, Nat.div_add_mod]

theorem beU24_be24 {n : Nat} (hn : n < 2 ^ 24) :
    beU24 (n / 65536).toUInt8 (n / 256 % 256).toUInt8 (n % 256).toUInt8 = n := by
  have hhigh : n / 65536 < 256 := by omega
  have hmiddle : n / 256 % 256 < 256 := Nat.mod_lt _ (by omega)
  have hlow : n % 256 < 256 := Nat.mod_lt _ (by omega)
  rw [beU24, Nat.toUInt8_eq, Nat.toUInt8_eq, Nat.toUInt8_eq, UInt8.toNat_ofNat_of_lt' hhigh,
    UInt8.toNat_ofNat_of_lt' hmiddle, UInt8.toNat_ofNat_of_lt' hlow]
  omega

theorem Fragment.bytes_length (fragment : Fragment) :
    fragment.bytes.length = 5 + fragment.payload.length := by
  rw [Fragment.bytes, List.length_append]
  rfl

theorem framing_cons (fragment : Fragment) (rest : List Fragment) :
    framing (fragment :: rest) = fragment.bytes ++ framing rest := List.flatMap_cons

theorem carriedBy_fuel {fuel : Nat} {data : Bytes} (hfuel : data.length ≤ fuel) :
    carriedBy (records fuel data) = carried data := by
  have hgrows {fuel fuel' : Nat} (hfuel : data.length ≤ fuel) (hfuel' : data.length ≤ fuel') :
      carriedBy (records fuel data) <+: carriedBy (records fuel' data) := by
    have hmore : carriedBy (records fuel data) <+: carriedBy (records fuel' (data ++ [])) :=
      carriedBy_grows hfuel (by rwa [List.append_nil])
    rwa [List.append_nil] at hmore
  exact (hgrows hfuel (Nat.le_refl _)).eq_of_length_le (hgrows (Nat.le_refl _) hfuel).length_le

theorem carried_record (major minor high low : UInt8) (rest : Bytes) :
    carried (handshake :: major :: minor :: high :: low :: rest) =
      rest.take (beU16 high low) ++ carried (rest.drop (beU16 high low)) := by
  rw [carried, walkRecords]
  simp only [List.length_cons]
  rw [records, nextRecord]
  dsimp only
  rw [carriedBy, if_neg (by simp), carriedBy_fuel]
  rw [List.length_drop]
  omega

theorem carried_header (major minor : UInt8) {len : Nat} (hlen : len ≤ 65535) (rest : Bytes) :
    carried (handshake :: major :: minor :: be16 len ++ rest) =
      rest.take len ++ carried (rest.drop len) := by
  have hrecord := carried_record major minor (len / 256).toUInt8 (len % 256).toUInt8 rest
  rwa [beU16_be16 hlen] at hrecord

theorem carried_short {data : Bytes} (hshort : data.length < 5) : carried data = [] := by
  match data, hshort with
  | [], _ => rfl
  | [_], _ => rfl
  | [_, _], _ => rfl
  | [_, _, _], _ => rfl
  | [_, _, _, _], _ => rfl
  | _ :: _ :: _ :: _ :: _ :: rest, hshort => exact absurd hshort (Nat.not_lt.mpr (by simp))

theorem carried_framing (fragments : List Fragment) (trailing : Bytes) :
    carried (framing fragments ++ trailing) =
      fragments.flatMap Fragment.payload ++ carried trailing := by
  induction fragments with
  | nil => rfl
  | cons fragment rest ih =>
      rw [framing_cons, List.append_assoc, Fragment.bytes, List.append_assoc,
        carried_header _ _ fragment.fits, List.take_left' rfl, List.drop_left' rfl, ih,
        List.flatMap_cons, List.append_assoc]

theorem present_zero (fragments : List Fragment) : present 0 fragments = [] := by
  induction fragments with
  | nil => rfl
  | cons fragment rest ih =>
      rw [present, Nat.zero_sub, Nat.zero_sub, List.take_zero, ih]
      rfl

theorem carried_take (n : Nat) (fragments : List Fragment) :
    carried ((framing fragments).take n) = present n fragments := by
  induction fragments generalizing n with
  | nil => rw [framing, List.flatMap_nil, List.take_nil]; rfl
  | cons fragment rest ih =>
      rw [framing_cons, present, Fragment.bytes]
      obtain hshort | hheader := Nat.lt_or_ge n 5
      · have hzero : n - (5 + fragment.payload.length) = 0 := by omega
        rw [carried_short, hzero, present_zero, Nat.sub_eq_zero_of_le (Nat.le_of_lt hshort),
          List.take_zero, List.append_nil]
        exact Nat.lt_of_le_of_lt (List.length_take_le _ _) hshort
      · obtain ⟨k, rfl⟩ := Nat.exists_eq_add_of_le' hheader
        have hcut : (handshake :: fragment.major :: fragment.minor ::
            be16 fragment.payload.length ++ fragment.payload ++ framing rest).take (k + 5) =
              handshake :: fragment.major :: fragment.minor :: be16 fragment.payload.length ++
                (fragment.payload ++ framing rest).take k := rfl
        rw [hcut, carried_header _ _ fragment.fits, List.take_take, List.drop_take,
          List.drop_left' rfl, ih, Nat.add_sub_cancel, Nat.min_comm, ← List.take_take,
          List.take_left' rfl]
        congr 2
        omega

theorem assembleHandshakeMessage_spec {data : Bytes} (hlength : 5 ≤ data.length)
    (htype : data.head? = some handshake) :
    assembleHandshakeMessage data = some ⟨(carried data).take
      ((announced (carried data)).getD (carried data).length), isWhole (carried data)⟩ := by
  obtain ⟨known, hknown, _, hcomplete, _⟩ := handshakePrefix_spec hlength htype
  have hmessage := handshakeMessage_spec hlength htype
  rw [handshakeMessage, hknown, Option.map_some] at hmessage
  rw [assembleHandshakeMessage, hknown, Option.map_some, Option.some.inj hmessage, hcomplete]

section Framing

variable {message : Bytes} {fragments : List Fragment}

theorem framing_header (hmessage : announced message = some message.length)
    (hsplit : fragments.flatMap Fragment.payload = message) :
    ∃ fragment rest, fragments = fragment :: rest := by
  cases fragments with
  | nil =>
      obtain rfl := hsplit
      cases hmessage
  | cons fragment rest => exact ⟨fragment, rest, rfl⟩

theorem framing_whole (hmessage : announced message = some message.length)
    (hsplit : fragments.flatMap Fragment.payload = message) (trailing : Bytes) :
    assembleHandshakeMessage (framing fragments ++ trailing) = some ⟨message, true⟩ := by
  obtain ⟨fragment, rest, rfl⟩ := framing_header hmessage hsplit
  have hcarried := carried_framing (fragment :: rest) trailing
  rw [hsplit] at hcarried
  have hlength : 5 ≤ (framing (fragment :: rest) ++ trailing).length := by
    rw [framing_cons, List.length_append, List.length_append, Fragment.bytes_length]
    omega
  rw [assembleHandshakeMessage_spec hlength rfl, hcarried,
    isWhole_append (isWhole_iff.mpr ⟨_, hmessage, Nat.le_refl _⟩),
    announced_append hmessage, Option.getD_some, List.take_left' rfl]

theorem present_message (hsplit : fragments.flatMap Fragment.payload = message) (n : Nat) :
    present n fragments <+: message := by
  have hcarried := carried_framing fragments []
  have hnil : carried [] = [] := rfl
  rw [hnil, List.append_nil, List.append_nil, hsplit] at hcarried
  rw [← carried_take, ← hcarried]
  have hgrows := carried_grows ((framing fragments).take n) ((framing fragments).drop n)
  rwa [List.take_append_drop] at hgrows

theorem present_open (hmessage : announced message = some message.length)
    (hsplit : fragments.flatMap Fragment.payload = message) {n : Nat}
    (hcut : (present n fragments).length < message.length) :
    isWhole (present n fragments) = false := by
  rw [Bool.eq_false_iff]
  intro hwhole
  obtain ⟨len, hannounced, hle⟩ := isWhole_iff.mp hwhole
  obtain ⟨more, hmore⟩ := present_message hsplit n
  have hsame := announced_append hannounced more
  rw [hmore, hmessage] at hsame
  obtain rfl := Option.some.inj hsame
  omega

theorem framing_cut (hmessage : announced message = some message.length)
    (hsplit : fragments.flatMap Fragment.payload = message) (trailing : Bytes) {n : Nat}
    (hn : 5 ≤ n) (hcut : (present n fragments).length < message.length) :
    assembleHandshakeMessage ((framing fragments ++ trailing).take n) =
      some ⟨present n fragments, false⟩ := by
  obtain ⟨fragment, rest, rfl⟩ := framing_header hmessage hsplit
  have hinside : n ≤ (framing (fragment :: rest)).length := by
    by_contra hbehind
    have hall := carried_take n (fragment :: rest)
    have hcarried := carried_framing (fragment :: rest) []
    have hnil : carried [] = [] := rfl
    rw [hnil, List.append_nil, List.append_nil, hsplit] at hcarried
    rw [List.take_of_length_le (Nat.le_of_lt (Nat.not_le.mp hbehind)), hcarried] at hall
    rw [← hall] at hcut
    exact Nat.lt_irrefl _ hcut
  rw [List.take_append_of_le_length hinside]
  have hopen := present_open hmessage hsplit hcut
  have hlength : 5 ≤ ((framing (fragment :: rest)).take n).length := by
    rw [List.length_take]
    omega
  have htype : ((framing (fragment :: rest)).take n).head? = some handshake := by
    rw [List.head?_take, if_neg (by omega)]
    rfl
  rw [assembleHandshakeMessage_spec hlength htype, carried_take, hopen, List.take_of_length_le]
  cases hannounced : announced (present n (fragment :: rest)) with
  | none => exact Nat.le_refl _
  | some len =>
      rw [Option.getD_some]
      by_contra hlt
      rw [isWhole_iff.mpr ⟨len, hannounced, Nat.le_of_lt (Nat.not_le.mp hlt)⟩] at hopen
      cases hopen

theorem parseSni_framing (hmessage : announced message = some message.length)
    (hsplit : fragments.flatMap Fragment.payload = message)
    (hmajor : ∀ fragment ∈ fragments, fragment.major = 0x03) (trailing : Bytes) :
    parseSni (framing fragments ++ trailing) = parseHandshake message := by
  obtain ⟨fragment, rest, rfl⟩ := framing_header hmessage hsplit
  have hcarried := carried_framing (fragment :: rest) trailing
  rw [hsplit] at hcarried
  have hhello : Hello (framing (fragment :: rest) ++ trailing) := by
    refine ⟨?_, rfl, congrArg some (hmajor fragment List.mem_cons_self)⟩
    rw [framing_cons, List.length_append, List.length_append, Fragment.bytes_length]
    omega
  rw [parseSni_hello hhello, hcarried]
  exact parseHandshake_whole (isWhole_iff.mpr ⟨_, hmessage, Nat.le_refl _⟩) _

/-- However a message is split, it is put together whole; a cut stream gives what there is of it;
and the server name is that of the message in one record. -/
theorem reassembly_exact (hmessage : announced message = some message.length)
    (hsplit : fragments.flatMap Fragment.payload = message) (trailing : Bytes) :
    assembleHandshakeMessage (framing fragments ++ trailing) = some ⟨message, true⟩ ∧
      (∀ n, 5 ≤ n → (present n fragments).length < message.length →
        assembleHandshakeMessage ((framing fragments ++ trailing).take n) =
          some ⟨present n fragments, false⟩) ∧
      ((∀ fragment ∈ fragments, fragment.major = 0x03) → ∀ (hfits : message.length ≤ 65535) minor,
        parseSni (framing fragments ++ trailing) =
          parseSni (framing [⟨0x03, minor, message, hfits⟩])) := by
  refine ⟨framing_whole hmessage hsplit trailing,
    fun n hn hcut => framing_cut hmessage hsplit trailing hn hcut, fun hmajor hfits minor => ?_⟩
  have hone : [(⟨0x03, minor, message, hfits⟩ : Fragment)].flatMap Fragment.payload = message :=
    List.append_nil message
  have hsingle := parseSni_framing hmessage hone (by simp) []
  rw [List.append_nil] at hsingle
  rw [parseSni_framing hmessage hsplit hmajor trailing, hsingle]

end Framing

def namedHello : Bytes :=
  [1, 0, 0, 57, 3, 3] ++ List.replicate 32 7 ++ [1, 9, 0, 2, 0x13, 0x01, 1, 0, 0, 13] ++
    [0, 0, 0, 9, 0, 7, 0, 0, 4] ++ lit "h.io"

/-- Split inside its length and inside its name, with an empty record between. -/
def namedFragments : List Fragment :=
  [⟨3, 1, namedHello.take 2, by decide⟩, ⟨3, 1, [], by decide⟩,
    ⟨3, 3, (namedHello.drop 2).take 57, by decide⟩, ⟨3, 1, namedHello.drop 59, by decide⟩]

theorem reassembly_exact_split :
    assembleHandshakeMessage (framing namedFragments ++ [0x17]) = some ⟨namedHello, true⟩ ∧
      assembleHandshakeMessage ((framing namedFragments ++ [0x17]).take 30) =
        some ⟨namedHello.take 15, false⟩ ∧
      parseSni (framing namedFragments ++ [0x17]) =
        parseSni (framing [⟨0x03, 1, namedHello, by decide⟩]) ∧
      parseSni (framing namedFragments ++ [0x17]) = some (lit "h.io") := by
  have hmessage : announced namedHello = some namedHello.length := by decide
  have hsplit : namedFragments.flatMap Fragment.payload = namedHello := by decide
  have hcut : (present 30 namedFragments).length < namedHello.length := by decide
  have hpresent : present 30 namedFragments = namedHello.take 15 := by decide
  obtain ⟨hwhole, hcuts, hname⟩ := reassembly_exact hmessage hsplit [0x17]
  have hsame := hname (by decide) (by decide) 1
  refine ⟨hwhole, ?_, hsame, ?_⟩
  · rw [← hpresent]
    exact hcuts 30 (by decide) hcut
  · rw [hsame]
    decide +kernel

end Resocks5.Recovery
