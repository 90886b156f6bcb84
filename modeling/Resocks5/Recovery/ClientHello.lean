import Resocks5.Recovery.Reassembly

namespace Resocks5.Recovery

open Resocks5.Foundation

/-! A ClientHello as a client writes it. -/

/-- A vector of at most `max` bytes. -/
abbrev Vec (max : Nat) := { bytes : Bytes // bytes.length ≤ max }

structure Extension where
  type : Nat
  type_le : type ≤ 65535
  body : Vec 65535

def Extension.bytes (extension : Extension) : Bytes :=
  be16 extension.type ++ be16 extension.body.val.length ++ extension.body.val

structure ServerName where
  nameType : UInt8
  name : Vec 65535

def ServerName.bytes (entry : ServerName) : Bytes :=
  entry.nameType :: be16 entry.name.val.length ++ entry.name.val

def serverNameList (entries : List ServerName) : Bytes :=
  be16 (entries.flatMap ServerName.bytes).length ++ entries.flatMap ServerName.bytes

/-- A hello may end without extensions. -/
structure ClientHello where
  version : Bytes
  version_length : version.length = 2
  random : Bytes
  random_length : random.length = 32
  sessionId : Vec 255
  cipherSuites : Vec 65535
  compressionMethods : Vec 255
  extensions : Option (List Extension)
  extensions_le : ∀ list ∈ extensions, (list.flatMap Extension.bytes).length ≤ 65535

namespace ClientHello

def extensionsBytes (hello : ClientHello) : Bytes :=
  match hello.extensions with
  | none => []
  | some list => be16 (list.flatMap Extension.bytes).length ++ list.flatMap Extension.bytes

def body (hello : ClientHello) : Bytes :=
  hello.version ++ (hello.random ++ (hello.sessionId.val.length.toUInt8 :: hello.sessionId.val ++
    (be16 hello.cipherSuites.val.length ++ hello.cipherSuites.val ++
      (hello.compressionMethods.val.length.toUInt8 :: hello.compressionMethods.val ++
        hello.extensionsBytes))))

def message (hello : ClientHello) : Bytes := 0x01 :: be24 hello.body.length ++ hello.body

theorem body_length (hello : ClientHello) : hello.body.length < 2 ^ 24 := by
  have hsession := hello.sessionId.property
  have hsuites := hello.cipherSuites.property
  have hmethods := hello.compressionMethods.property
  have hextensions : hello.extensionsBytes.length ≤ 2 + 65535 := by
    rw [extensionsBytes]
    cases hlist : hello.extensions with
    | none => exact Nat.zero_le _
    | some list =>
        have hle := hello.extensions_le list hlist
        have htwo (n : Nat) : (be16 n).length = 2 := rfl
        rw [List.length_append, htwo]
        omega
  have htwo (n : Nat) : (be16 n).length = 2 := rfl
  simp only [body, List.length_append, List.length_cons, hello.version_length,
    hello.random_length, htwo]
  omega

theorem message_announced (hello : ClientHello) :
    announced hello.message = some hello.message.length := by
  rw [message, be24]
  simp only [List.cons_append, List.nil_append, announced, beU24_be24 hello.body_length,
    List.length_cons]
  congr 1
  omega

end ClientHello

/-! Reading over what was written. -/

theorem skip_front {front : Bytes} {n : Nat} (hlength : front.length = n) (rest : Bytes) :
    skip (front ++ rest) n = some rest := by
  rw [skip, if_pos (by rw [List.length_append]; omega), List.drop_left' hlength]

theorem skipVec8_vec (vec : Vec 255) (rest : Bytes) :
    skipVec8 (vec.val.length.toUInt8 :: vec.val ++ rest) = some rest := by
  have hlength : vec.val.length.toUInt8.toNat = vec.val.length := by
    have hle := vec.property
    rw [Nat.toUInt8_eq, UInt8.toNat_ofNat_of_lt' (Nat.lt_succ_of_le hle)]
  rw [List.cons_append, skipVec8, hlength, skip_front rfl]

theorem skipVec16_vec (vec : Vec 65535) (rest : Bytes) :
    skipVec16 (be16 vec.val.length ++ vec.val ++ rest) = some rest := by
  rw [be16, List.append_assoc]
  simp only [List.cons_append, List.nil_append, skipVec16, beU16_be16 vec.property]
  exact skip_front rfl rest

theorem clientHelloExtensions_body (hello : ClientHello) :
    clientHelloExtensions hello.body =
      hello.extensions.map fun list => list.flatMap Extension.bytes := by
  simp only [clientHelloExtensions, ClientHello.body, Option.bind_eq_bind,
    skip_front hello.version_length, skip_front hello.random_length, skipVec8_vec, skipVec16_vec,
    Option.bind_some, ClientHello.extensionsBytes]
  cases hlist : hello.extensions with
  | none => rfl
  | some list =>
      have hle := hello.extensions_le list hlist
      simp only [be16, List.cons_append, List.nil_append, beU16_be16 hle, List.take_length,
        Option.map_some]

theorem parseHandshake_hello (hello : ClientHello) :
    parseHandshake hello.message = hello.extensions.bind fun list =>
      sniExtension (list.flatMap Extension.bytes).length (list.flatMap Extension.bytes) := by
  rw [ClientHello.message, be24]
  simp only [List.cons_append, List.nil_append, parseHandshake, beU24_be24 hello.body_length,
    List.take_length, clientHelloExtensions_body]
  cases hello.extensions with
  | none => rfl
  | some list => rfl

theorem sniExtension_step (extension : Extension) (fuel : Nat) (rest : Bytes) :
    sniExtension (fuel + 1) (extension.bytes ++ rest) =
      if extension.type = 0 then parseServerNameExt extension.body.val
      else sniExtension fuel rest := by
  have hlength : ¬ (extension.body.val ++ rest).length < extension.body.val.length := by
    rw [List.length_append]
    omega
  simp only [Extension.bytes, be16, List.cons_append, List.nil_append, sniExtension,
    beU16_be16 extension.type_le, beU16_be16 extension.body.property]
  rw [if_neg hlength, List.take_left' rfl, List.drop_left' rfl]

theorem Extension.bytes_length (extension : Extension) :
    extension.bytes.length = 4 + extension.body.val.length := by
  have htwo (n : Nat) : (be16 n).length = 2 := rfl
  rw [Extension.bytes, List.length_append, List.length_append, htwo, htwo]

theorem sniExtension_others {others : List Extension} (hothers : ∀ other ∈ others, other.type ≠ 0)
    {fuel : Nat} {rest : Bytes} (hfuel : (others.flatMap Extension.bytes).length ≤ fuel) :
    ∃ left, fuel ≤ left + (others.flatMap Extension.bytes).length ∧
      sniExtension fuel (others.flatMap Extension.bytes ++ rest) = sniExtension left rest := by
  induction others generalizing fuel with
  | nil => exact ⟨fuel, Nat.le_refl _, rfl⟩
  | cons other others ih =>
      rw [List.flatMap_cons, List.length_append, Extension.bytes_length] at hfuel
      cases fuel with
      | zero => omega
      | succ fuel =>
          obtain ⟨left, hleft, hsame⟩ :=
            ih (fun other' hin => hothers other' (List.mem_cons_of_mem _ hin))
              (show (others.flatMap Extension.bytes).length ≤ fuel by omega)
          refine ⟨left, ?_, ?_⟩
          · rw [List.flatMap_cons, List.length_append, Extension.bytes_length]
            omega
          · rw [List.flatMap_cons, List.append_assoc, sniExtension_step,
              if_neg (hothers other List.mem_cons_self), hsame]

theorem serverNames_step (entry : ServerName) (fuel : Nat) (rest : Bytes) :
    serverNames (fuel + 1) (entry.bytes ++ rest) =
      if entry.nameType = 0x00 then
        if isUtf8 entry.name.val && !entry.name.val.isEmpty then
          some (entry.name.val.map toAsciiLower)
        else none
      else serverNames fuel rest := by
  have hlength : ¬ (entry.name.val ++ rest).length < entry.name.val.length := by
    rw [List.length_append]
    omega
  simp only [ServerName.bytes, be16, List.cons_append, List.nil_append, serverNames,
    beU16_be16 entry.name.property]
  rw [if_neg hlength, List.take_left' rfl, List.drop_left' rfl]

theorem serverNames_host {others : List ServerName}
    (hothers : ∀ other ∈ others, other.nameType ≠ 0x00) {host : ServerName}
    (hhost : host.nameType = 0x00) (hutf8 : isUtf8 host.name.val = true)
    (hne : host.name.val ≠ []) {fuel : Nat} {rest : Bytes}
    (hfuel : (others.flatMap ServerName.bytes ++ (host.bytes ++ rest)).length ≤ fuel) :
    serverNames fuel (others.flatMap ServerName.bytes ++ (host.bytes ++ rest)) =
      some (host.name.val.map toAsciiLower) := by
  have hbytes (entry : ServerName) : entry.bytes.length = 3 + entry.name.val.length := by
    have htwo (n : Nat) : (be16 n).length = 2 := rfl
    rw [ServerName.bytes, List.length_append, List.length_cons, htwo]
  induction others generalizing fuel with
  | nil =>
      rw [List.flatMap_nil, List.nil_append, List.length_append, hbytes] at hfuel
      cases fuel with
      | zero => omega
      | succ fuel =>
          rw [List.flatMap_nil, List.nil_append, serverNames_step, if_pos hhost, hutf8]
          simp [hne]
  | cons other others ih =>
      rw [List.flatMap_cons, List.append_assoc, List.length_append, hbytes] at hfuel
      cases fuel with
      | zero => omega
      | succ fuel =>
          rw [List.flatMap_cons, List.append_assoc, serverNames_step,
            if_neg (hothers other List.mem_cons_self)]
          exact ih (fun other' hin => hothers other' (List.mem_cons_of_mem _ hin)) (by omega)

theorem parseServerNameExt_list {entries : List ServerName} {host : ServerName}
    (hfits : (serverNameList entries).length ≤ 65535)
    (hhost : entries.find? (·.nameType == 0x00) = some host)
    (hutf8 : isUtf8 host.name.val = true) (hne : host.name.val ≠ []) :
    parseServerNameExt (serverNameList entries) = some (host.name.val.map toAsciiLower) := by
  obtain ⟨htype, others, more, rfl, hothers⟩ := List.find?_eq_some_iff_append.mp hhost
  have hentries : (others ++ host :: more).flatMap ServerName.bytes =
      others.flatMap ServerName.bytes ++ (host.bytes ++ more.flatMap ServerName.bytes) := by
    rw [List.flatMap_append, List.flatMap_cons]
  rw [serverNameList, hentries] at hfits ⊢
  generalize hlist : others.flatMap ServerName.bytes ++
    (host.bytes ++ more.flatMap ServerName.bytes) = list at hfits ⊢
  have hle : list.length ≤ 65535 := by
    rw [List.length_append] at hfits
    omega
  simp only [be16, List.cons_append, List.nil_append, parseServerNameExt, beU16_be16 hle,
    Nat.lt_irrefl, if_false, List.take_length]
  rw [← hlist]
  exact serverNames_host (by simpa using hothers) (by simpa using htype) hutf8 hne (Nat.le_refl _)

theorem sniExtension_first {list : List Extension} {sni : Extension}
    (hsni : list.find? (·.type == 0) = some sni) :
    sniExtension (list.flatMap Extension.bytes).length (list.flatMap Extension.bytes) =
      parseServerNameExt sni.body.val := by
  obtain ⟨htype, others, more, rfl, hothers⟩ := List.find?_eq_some_iff_append.mp hsni
  rw [List.flatMap_append, List.flatMap_cons, List.length_append, List.length_append]
  obtain ⟨left, hleft, hsame⟩ := @sniExtension_others others (by simpa using hothers)
    ((others.flatMap Extension.bytes).length +
      (sni.bytes.length + (more.flatMap Extension.bytes).length))
    (sni.bytes ++ more.flatMap Extension.bytes) (by omega)
  rw [hsame]
  rw [Extension.bytes_length] at hleft
  cases left with
  | zero => omega
  | succ left => rw [sniExtension_step, if_pos (by simpa using htype)]

theorem sniExtension_none {list : List Extension} (hnone : ∀ other ∈ list, other.type ≠ 0) :
    sniExtension (list.flatMap Extension.bytes).length (list.flatMap Extension.bytes) = none := by
  obtain ⟨left, _, hsame⟩ := @sniExtension_others list hnone _ [] (Nat.le_refl _)
  rw [List.append_nil] at hsame
  rw [hsame]
  cases left with
  | zero => rfl
  | succ left => rfl

/-- The first host name in the first `server_name` extension is read back, whatever else the hello
holds and however it is split into records. -/
theorem parseSni_clientHello (hello : ClientHello) {fragments : List Fragment}
    (hsplit : fragments.flatMap Fragment.payload = hello.message)
    (hmajor : ∀ fragment ∈ fragments, fragment.major = 0x03) (trailing : Bytes) :
    (∀ list sni entries host, hello.extensions = some list →
      list.find? (·.type == 0) = some sni → sni.body.val = serverNameList entries →
      entries.find? (·.nameType == 0x00) = some host →
      isUtf8 host.name.val = true → host.name.val ≠ [] →
      parseSni (framing fragments ++ trailing) = some (host.name.val.map toAsciiLower)) ∧
    ((∀ list, hello.extensions = some list → ∀ extension ∈ list, extension.type ≠ 0) →
      parseSni (framing fragments ++ trailing) = none) := by
  rw [parseSni_framing hello.message_announced hsplit hmajor, parseHandshake_hello]
  constructor
  · intro list sni entries host hlist hsni hentries hhost hutf8 hne
    rw [hlist, Option.bind_some, sniExtension_first hsni, hentries]
    have hfits := sni.body.property
    rw [hentries] at hfits
    exact parseServerNameExt_list hfits hhost hutf8 hne
  · intro hnone
    cases hlist : hello.extensions with
    | none => rfl
    | some list =>
        rw [Option.bind_some]
        exact sniExtension_none (hnone list hlist)

def sampleHello : ClientHello where
  version := [3, 3]
  version_length := rfl
  random := List.replicate 32 7
  random_length := rfl
  sessionId := ⟨[1], by decide⟩
  cipherSuites := ⟨[0x13, 0x01], by decide⟩
  compressionMethods := ⟨[0], by decide⟩
  extensions := some [⟨10, by decide, ⟨[0, 0], by decide⟩⟩,
    ⟨0, by decide, ⟨[0, 10, 9, 0, 1, 0x41, 0, 0, 3, 0x58, 0x2E, 0x61], by decide⟩⟩]
  extensions_le := by
    intro list hlist
    obtain rfl := Option.some.inj hlist
    decide

theorem parseSni_clientHello_sample :
    parseSni (framing [⟨3, 1, sampleHello.message.take 50, by decide⟩,
      ⟨3, 1, sampleHello.message.drop 50, by decide⟩] ++ [0x16]) = some (lit "x.a") :=
  (parseSni_clientHello sampleHello (by decide) (by decide) [0x16]).1 _ _
    [⟨9, ⟨[0x41], by decide⟩⟩, ⟨0, ⟨lit "X.a", by decide⟩⟩] ⟨0, ⟨lit "X.a", by decide⟩⟩
    rfl rfl rfl rfl (by decide) (by decide)

end Resocks5.Recovery
