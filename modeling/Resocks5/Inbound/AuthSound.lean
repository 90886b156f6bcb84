import Resocks5.Inbound.HttpHead

namespace Resocks5.Inbound

open Resocks5.Foundation
open Resocks5.Net
open Prog

/-! Nobody gets in unasked. -/

/-- The host was asked once, and granted. -/
def Granted (log : Log Credentials) : Prop :=
  ∃ credentials, log.asked = [(credentials, true)]

/-- The success byte of RFC 1929 comes after the host's word. -/
def SuccessGranted (log : Log Credentials) : Prop :=
  [5, 2, 1, 0] <+: log.written → Granted log

/-- What the host hears of a field: the text, or the lossy text and the bytes. -/
def Heard (raw : Bool) (field text : Bytes) (kept : Option Bytes) : Prop :=
  (isUtf8 field = true ∧ text = field ∧ kept = none) ∨
    (raw = true ∧ isUtf8 field = false ∧ text = fromUtf8Lossy field ∧ kept = some field)

/-- The fields of RFC 1929 in the client's bytes. -/
def SocksCarries (taken user password : Bytes) : Prop :=
  ∃ (n u p : UInt8) (methods rest : Bytes), methods.length = n.toNat ∧ 2 ∈ methods ∧
    user.length = u.toNat ∧ password.length = p.toNat ∧
    taken = 5 :: n :: methods ++ (1 :: u :: user ++ (p :: password ++ rest))

/-- A line whose name, with blanks around it and in either case, is `Proxy-Authorization`. -/
def Authorizes (line value : Bytes) : Prop :=
  ∃ name rest, line = name ++ 0x3A :: rest ∧ (0x3A : UInt8) ∉ name ∧
    eqIgnoreAsciiCase (trimAscii name) (lit "proxy-authorization") = true ∧
    trimAscii rest = value

/-- The first `Proxy-Authorization` field of a head in the client's bytes. -/
def HttpCarries (base64 : Base64) (taken user password : Bytes) : Prop :=
  ∃ requestLine before line after rest scheme token,
    taken = joined (requestLine :: before ++ line :: after) ++ headerEnd ++ rest ∧
    IsHead (joined (requestLine :: before ++ line :: after) ++ headerEnd) ∧
    (∀ other ∈ requestLine :: before ++ line :: after, ¬ crlf <:+: other) ∧
    (∀ other ∈ before, ∀ value, ¬ Authorizes other value) ∧
    Authorizes line (scheme ++ 0x20 :: token) ∧ (0x20 : UInt8) ∉ scheme ∧
    eqIgnoreAsciiCase scheme (lit "Basic") = true ∧
    base64.decode (trim token) = some (user ++ 0x3A :: password) ∧ (0x3A : UInt8) ∉ user

def Carries (base64 : Base64) : Protocol → Bytes → Bytes → Bytes → Prop
  | .socks5 => SocksCarries
  | .http => HttpCarries base64

/-- Verified by the host with what the client sent, or let in anonymously. -/
def Authentic (base64 : Base64) (options : ServerOptions) (protocol : Protocol)
    (username : Option Bytes) (log : Log Credentials) : Prop :=
  (∃ credentials user password, username = some credentials.username ∧
    options.password = true ∧ log.asked = [(credentials, true)] ∧
    Carries base64 protocol log.taken user password ∧
    Heard options.rawCredentials user credentials.username credentials.usernameRaw ∧
    Heard options.rawCredentials password credentials.password credentials.passwordRaw) ∨
  (username = none ∧ options.anonymous = true ∧ log.asked = [])

def CleanTarget (target : Bytes) : Prop :=
  (HostPort.parse target).isSome = true ∧ ∀ b ∈ target, isUnprintable b = false

section

variable {log : Log Credentials}

theorem SuccessGranted.of_short (hshort : log.written.length < 4) : SuccessGranted log := by
  intro hsuccess
  have hlength := hsuccess.length_le
  exact absurd hlength (Nat.not_le.mpr hshort)

/-- Whatever is written from here on, the success byte is accounted for. -/
def Settled (log : Log Credentials) : Prop := Granted log ∨ [5, 0] <+: log.written

theorem Settled.now (hsettled : Settled log) : SuccessGranted log := by
  intro hsuccess
  obtain hgranted | hanonymous := hsettled
  · exact hgranted
  · have hprefix := List.prefix_of_prefix_length_le hanonymous hsuccess (by decide)
    exact absurd hprefix (by decide)

theorem Settled.take (hsettled : Settled log) (bytes : Bytes) : Settled (log.take bytes) := hsettled

theorem Settled.put (hsettled : Settled log) (bytes : Bytes) : Settled (log.put bytes) :=
  hsettled.imp_right fun hprefix => hprefix.trans (List.prefix_append _ _)

section

variable {α β : Type} {post : α → Log Credentials → Prop}

theorem Settled.fail (hsettled : Settled log) (bytes : Bytes) (error : ServerError) :
    (write bytes (fail error) : ServerProg α).Safe SuccessGranted post log :=
  ⟨fun sent _ => (hsettled.put sent).now, (hsettled.put bytes).now⟩

theorem Settled.exact (hsettled : Settled log) {n : Nat} {next : Bytes → ServerProg α}
    (hnext : ∀ chunk, chunk.length = n → (next chunk).Safe SuccessGranted post (log.take chunk)) :
    (exact n next).Safe SuccessGranted post log :=
  ⟨fun chunk _ => (hsettled.take chunk).now, hnext⟩

end

structure TargetRead (before : Log Credentials) (target : Bytes) (after : Log Credentials) :
    Prop where
  clean : CleanTarget target
  spelled : ∀ pair, HostPort.parse target = some pair → HostPort.Spellable pair.host
  asked : after.asked = before.asked
  taken : before.taken <+: after.taken

theorem CleanTarget.bytes {target : Bytes} {p : UInt8 → Bool}
    (hparse : (HostPort.parse target).isSome = true) (htarget : ∀ b ∈ target, p b = true)
    (hp : ∀ b, p b = true → isUnprintable b = false) : CleanTarget target :=
  ⟨hparse, fun b hb => hp b (htarget b hb)⟩

def isTargetByte (b : UInt8) : Bool := isDigit 16 b || b == 0x3A || b == 0x2E || b == 0x5B || b == 0x5D

theorem targetByte_clean (b : UInt8) (hb : isTargetByte b = true) : isUnprintable b = false := by
  have hgraphic : isGraphic b = true := by
    grind [isTargetByte, isDigit, toDigit, isGraphic]
  exact graphic_clean hgraphic

theorem targetByte_port {port : UInt16} : ∀ b ∈ render 10 port.toNat, isTargetByte b = true := by
  intro b hb
  have hdigit := isDigit_mono (render_digits (by omega) (by omega) _ b hb)
  simp [isTargetByte, hdigit]

theorem ipv4_target_clean (addr : Ipv4) (port : UInt16) :
    CleanTarget (addr.display ++ 0x3A :: render 10 port.toNat) := by
  refine CleanTarget.bytes (by rw [HostPort.parse_ipv4]; rfl) ?_ targetByte_clean
  intro b hb
  rw [List.mem_append, List.mem_cons] at hb
  obtain hb | rfl | hb := hb
  · obtain hdigit | rfl := addr.display_bytes b hb
    · simp [isTargetByte, isDigit_mono hdigit]
    · rfl
  · rfl
  · exact targetByte_port b hb

theorem ipv6_target_clean (addr : Ipv6) (port : UInt16) :
    CleanTarget (0x5B :: addr.display ++ 0x5D :: 0x3A :: render 10 port.toNat) := by
  refine CleanTarget.bytes (by rw [HostPort.parse_ipv6]; rfl) ?_ targetByte_clean
  intro b hb
  simp only [List.cons_append, List.mem_cons, List.mem_append] at hb
  obtain rfl | hb | rfl | rfl | hb := hb
  · rfl
  · obtain hdigit | rfl | rfl := addr.display_bytes b hb
    · simp [isTargetByte, hdigit]
    · rfl
    · rfl
  · rfl
  · rfl
  · exact targetByte_port b hb

section

variable (hsettled : Settled log)

include hsettled

theorem readIpv4Target_safe : readIpv4Target.Safe SuccessGranted (TargetRead log) log := by
  simp only [readIpv4Target, readExact, readU16, exact_bind, ok_bind]
  refine hsettled.exact fun ip _ => (hsettled.take ip).exact fun port _ => ?_
  refine ⟨((hsettled.take ip).take port).now, ipv4_target_clean _ _, fun pair hpair => ?_, rfl, ?_⟩
  · rw [HostPort.parse_ipv4] at hpair
    obtain rfl := Option.some.inj hpair
    exact .inr (.inl (by rw [parseIpv4_display]; rfl))
  · rw [Log.take_take]
    exact List.prefix_append _ _

theorem readIpv6Target_safe : readIpv6Target.Safe SuccessGranted (TargetRead log) log := by
  simp only [readIpv6Target, readExact, readU16, exact_bind, ok_bind]
  refine hsettled.exact fun ip _ => (hsettled.take ip).exact fun port _ => ?_
  refine ⟨((hsettled.take ip).take port).now, ipv6_target_clean _ _, fun pair hpair => ?_, rfl, ?_⟩
  · rw [HostPort.parse_ipv6] at hpair
    obtain rfl := Option.some.inj hpair
    exact .inr (.inr (by rw [parseIpv6_display]; rfl))
  · rw [Log.take_take]
    exact List.prefix_append _ _

theorem readDomainTarget_safe : readDomainTarget.Safe SuccessGranted (TargetRead log) log := by
  simp only [readDomainTarget, readU8, readExact, readU16, exact_bind, ok_bind]
  refine hsettled.exact fun len _ => (hsettled.take len).exact fun domain hdomain => ?_
  refine ((hsettled.take len).take domain).exact fun port _ => ?_
  have hlater := ((hsettled.take len).take domain).take port
  split
  · exact hlater.now
  · split
    · exact hlater.fail _ _
    · rename_i htarget
      simp only [Bool.or_eq_true, not_or, List.any_eq_true, not_exists, not_and,
        Bool.not_eq_true, Option.isNone_eq_false_iff] at htarget
      obtain ⟨⟨_, hclean⟩, hparse⟩ := htarget
      have hlength : domain.length ≤ 255 := hdomain ▸ Nat.le_of_lt_succ (UInt8.toNat_lt _)
      refine ⟨hlater.now, ⟨hparse, ?_⟩, fun pair => HostPort.parse_spellable hlength, rfl, ?_⟩
      · intro b hb
        rw [List.mem_append, List.mem_cons] at hb
        obtain hb | rfl | hb := hb
        · exact hclean b hb
        · rfl
        · exact targetByte_clean b (targetByte_port b hb)
      · rw [Log.take_take, Log.take_take]
        exact List.prefix_append _ _

theorem readTarget_safe : readTarget.Safe SuccessGranted (TargetRead log) log := by
  simp only [readTarget, readExact, exact_bind, ok_bind]
  refine hsettled.exact fun header _ => ?_
  have hlater := hsettled.take header
  have hgrow : ∀ target after, SuccessGranted after → TargetRead (log.take header) target after →
      TargetRead log target after := fun target after _ hread =>
    ⟨hread.clean, hread.spelled, hread.asked, (List.prefix_append _ _).trans hread.taken⟩
  split
  · exact hlater.now
  · split
    · exact hlater.fail _ _
    · split
      · exact (readIpv4Target_safe hlater).mono hgrow
      · split
        · exact (readIpv6Target_safe hlater).mono hgrow
        · split
          · exact (readDomainTarget_safe hlater).mono hgrow
          · exact hlater.fail _ _

end

/-! SOCKS5. -/

theorem refusal_safe {α : Type} {post : α → Log Credentials → Prop}
    (hwritten : log.written = [5, 2]) (error : ServerError) :
    (write authFailure (fail error) : ServerProg α).Safe SuccessGranted post log := by
  have hrefusal : ∀ sent, sent <+: authFailure → SuccessGranted (log.put sent) := by
    intro sent hsent hsuccess
    rw [Log.put_written, hwritten] at hsuccess
    have hwhole := hsuccess.trans ((List.prefix_append_right_inj [5, 2]).mpr hsent)
    exact absurd hwhole (by decide)
  exact ⟨hrefusal, hrefusal authFailure (List.prefix_refl _)⟩

theorem verify_safe (options : ServerOptions) (credentials : Credentials)
    (hwritten : log.written = [5, 2]) (hasked : log.asked = []) :
    (verify options credentials).Safe SuccessGranted
      (fun identity after => identity.username = some credentials.username ∧
        after.asked = [(credentials, true)] ∧ after.taken = log.taken) log := by
  have hshort : log.written.length < 4 := by simp [hwritten]
  simp only [verify, call, ask_bind, ok_bind]
  refine ⟨.of_short hshort, fun answer => ?_⟩
  have hone : (log.ask credentials answer).asked = [(credentials, answer)] := by
    rw [Log.ask_asked, hasked, List.nil_append]
  cases answer with
  | true =>
      have hsettled : Settled (log.ask credentials true) := .inl ⟨credentials, hone⟩
      exact ⟨fun sent _ => (hsettled.put sent).now, (hsettled.put [1, 0]).now, rfl, hone, rfl⟩
  | false =>
      have hrefused : (log.ask credentials false).written = [5, 2] := hwritten
      exact refusal_safe hrefused _

theorem credentialText_heard {raw : Bool} {field text : Bytes} {kept : Option Bytes}
    (htext : credentialText raw field = some (text, kept)) : Heard raw field text kept := by
  rw [credentialText] at htext
  split at htext
  · rename_i hutf8
    cases htext
    exact .inl ⟨hutf8, rfl, rfl⟩
  · rename_i hutf8
    split at htext
    · rename_i hraw
      cases htext
      exact .inr ⟨hraw, Bool.eq_false_iff.mpr hutf8, rfl, rfl⟩
    · cases htext

theorem length_one {chunk : Bytes} (hlength : chunk.length = 1) : chunk = [chunk.headD 0] := by
  obtain ⟨b, rfl⟩ := List.length_eq_one_iff.mp hlength
  rfl

theorem length_two {chunk : Bytes} (hlength : chunk.length = 2) :
    chunk = [chunk.getD 0 0, chunk.getD 1 0] := by
  obtain ⟨b, c, rfl⟩ := List.length_eq_two.mp hlength
  rfl

theorem subnegotiate_safe (base64 : Base64) {options : ServerOptions} (n : UInt8) (methods : Bytes)
    (hmethods : methods.length = n.toNat) (htwo : 2 ∈ methods) (hpassword : options.password = true) :
    (subnegotiate options).Safe SuccessGranted
      (fun identity after => Settled after ∧
        Authentic base64 options .socks5 identity.username after)
      ⟨5 :: n :: methods, [5, 2], []⟩ := by
  have hshort : ∀ bytes, SuccessGranted (Log.take (⟨5 :: n :: methods, [5, 2], []⟩) bytes) :=
    fun bytes => .of_short (by simp)
  simp only [subnegotiate, readExact, readU8, exact_bind, ok_bind]
  refine ⟨fun header _ => hshort header, fun header hheader => ?_⟩
  dsimp only
  split
  · exact hshort header
  · rename_i hversion
    split
    · exact refusal_safe rfl _
    · refine ⟨fun user _ => ?_, fun user huser => ?_⟩
      · rw [Log.take_take]
        exact hshort _
      · refine ⟨fun plen _ => ?_, fun plen hplen => ?_⟩
        · rw [Log.take_take, Log.take_take]
          exact hshort _
        · dsimp only
          split
          · exact refusal_safe rfl _
          · refine ⟨fun password _ => ?_, fun password hlength => ?_⟩
            · rw [Log.take_take, Log.take_take, Log.take_take]
              exact hshort _
            · dsimp only
              cases husername : credentialText options.rawCredentials user with
              | none => exact refusal_safe rfl _
              | some username =>
                  cases hsecret : credentialText options.rawCredentials password with
                  | none => exact refusal_safe rfl _
                  | some secret =>
                      refine (verify_safe options _ rfl rfl).mono fun identity after _ hverified => ?_
                      obtain ⟨hname, hasked, htaken⟩ := hverified
                      refine ⟨.inl ⟨_, hasked⟩, .inl ⟨_, user, password, hname, hpassword, hasked, ?_,
                        credentialText_heard husername, credentialText_heard hsecret⟩⟩
                      have hone : header.getD 0 0 = 1 := not_not.mp hversion
                      refine ⟨n, header.getD 1 0, plen.headD 0, methods, [], hmethods, htwo, huser,
                        hlength, ?_⟩
                      rw [htaken, List.append_nil]
                      simp only [Log.take_taken]
                      rw [length_two hheader, length_one hplen, hone]
                      simp

theorem chooseMethod_some {options : ServerOptions} {methods : Bytes} {chosen : UInt8}
    (hchosen : chooseMethod options methods = some chosen) :
    (chosen = 2 ∧ options.password = true ∧ 2 ∈ methods) ∨
      (chosen = 0 ∧ options.anonymous = true) := by
  rw [chooseMethod] at hchosen
  split at hchosen
  · rename_i hpassword
    rw [Bool.and_eq_true, List.contains_iff_mem] at hpassword
    exact .inl ⟨(Option.some.inj hchosen).symm, hpassword⟩
  · split at hchosen
    · rename_i hanonymous
      rw [Bool.and_eq_true] at hanonymous
      exact .inr ⟨(Option.some.inj hchosen).symm, hanonymous.1⟩
    · cases hchosen

theorem SocksCarries.grow {taken more user password : Bytes}
    (hcarries : SocksCarries taken user password) (hmore : taken <+: more) :
    SocksCarries more user password := by
  obtain ⟨n, u, p, methods, rest, hmethods, htwo, huser, hpassword, rfl⟩ := hcarries
  obtain ⟨tail, rfl⟩ := hmore
  exact ⟨n, u, p, methods, rest ++ tail, hmethods, htwo, huser, hpassword, by simp⟩

theorem Authentic.grow {base64 : Base64} {options : ServerOptions} {username : Option Bytes}
    {after : Log Credentials} (hauthentic : Authentic base64 options .socks5 username log)
    (hasked : after.asked = log.asked) (htaken : log.taken <+: after.taken) :
    Authentic base64 options .socks5 username after := by
  obtain ⟨credentials, user, password, hname, henabled, hone, hcarries, hheard⟩ | hanonymous :=
    hauthentic
  · exact .inl ⟨credentials, user, password, hname, henabled, hasked.trans hone,
      SocksCarries.grow hcarries htaken, hheard⟩
  · exact .inr ⟨hanonymous.1, hanonymous.2.1, hasked.trans hanonymous.2.2⟩

/-- What a request must show when it is accepted. -/
def Accepted (base64 : Base64) (options : ServerOptions) (request : IncomingRequest)
    (log : Log Credentials) : Prop :=
  Authentic base64 options request.protocol request.username log ∧ CleanTarget request.target ∧
    (request.protocol = .socks5 → ∀ pair, HostPort.parse request.target = some pair →
      HostPort.Spellable pair.host)

theorem serveMethod_safe (base64 : Base64) {options : ServerOptions} {n chosen : UInt8}
    {methods : Bytes} (hmethods : methods.length = n.toNat)
    (hchosen : chooseMethod options methods = some chosen) :
    (serveMethod options chosen).Safe SuccessGranted (Accepted base64 options)
      ⟨5 :: n :: methods, [5, chosen], []⟩ := by
  have hrest : ∀ (identity : Identity) middle, Settled middle ∧
      Authentic base64 options .socks5 identity.username middle →
      (readTarget >>= fun target => ok {
        protocol := .socks5
        target
        username := identity.username
        usernameRaw := identity.usernameRaw
        credentials := identity.retained
        pipeline := [] }).Safe SuccessGranted (Accepted base64 options) middle := by
    intro identity middle ⟨hsettled, hauthentic⟩
    refine Safe.bind ((readTarget_safe hsettled).mono fun target after hinv hread => ?_)
    exact ⟨hinv, hauthentic.grow hread.asked hread.taken, hread.clean, fun _ => hread.spelled⟩
  rw [serveMethod]
  obtain ⟨rfl, hpassword, htwo⟩ | ⟨rfl, hanonymous⟩ := chooseMethod_some hchosen
  · rw [if_pos rfl]
    exact Safe.bind ((subnegotiate_safe base64 n methods hmethods htwo hpassword).mono
      fun identity middle _ hidentified => hrest identity middle hidentified)
  · rw [if_neg (by decide)]
    have hsettled : Settled ⟨5 :: n :: methods, [5, 0], []⟩ := .inr (List.prefix_refl _)
    exact hrest Identity.unknown _ ⟨hsettled, .inr ⟨rfl, hanonymous, rfl⟩⟩

theorem socks_safe (base64 : Base64) (options : ServerOptions) :
    (socks options).Safe SuccessGranted (Accepted base64 options) ⟨[5], [], []⟩ := by
  have hshort : ∀ bytes, SuccessGranted (Log.take ⟨[5], [], []⟩ bytes) :=
    fun bytes => .of_short (by simp)
  simp only [socks, readU8, readExact, exact_bind, ok_bind]
  refine ⟨fun chunk _ => hshort chunk, fun chunk hchunk => ⟨fun methods _ => ?_,
    fun methods hmethods => ?_⟩⟩
  · rw [Log.take_take]
    exact hshort _
  · have htwo : ∀ (answer sent : Bytes), answer.length = 2 → sent <+: answer →
        SuccessGranted ((((⟨[5], [], []⟩ : Log Credentials).take chunk).take methods).put sent) :=
      fun answer sent hanswer hsent => .of_short (by
        have hle := hsent.length_le
        simp only [Log.put_written, Log.take_written, List.nil_append]
        omega)
    dsimp only
    cases hchosen : chooseMethod options methods with
    | none => exact ⟨fun sent hsent => htwo _ sent rfl hsent, htwo _ _ rfl (List.prefix_refl _)⟩
    | some chosen =>
        refine ⟨fun sent hsent => htwo _ sent rfl hsent, ?_⟩
        rw [length_one hchunk]
        exact serveMethod_safe base64 hmethods hchosen

/-! HTTP. -/

theorem httpFail_safe {α : Type} {post : α → Log Credentials → Prop}
    (hwritten : log.written = []) (status : HttpStatus) (error : ServerError) :
    (httpFail status error : ServerProg α).Safe SuccessGranted post log := by
  have hletter : ¬ ([5, 2, 1, 0] : Bytes) <+: httpError status := by
    cases status <;> decide +kernel
  have hanswer : ∀ sent, sent <+: httpError status → SuccessGranted (log.put sent) := by
    intro sent hsent hsuccess
    rw [Log.put_written, hwritten, List.nil_append] at hsuccess
    exact absurd (hsuccess.trans hsent) hletter
  exact ⟨hanswer, hanswer _ (List.prefix_refl _)⟩

/-- The head is the client's bytes up to the first end of a header. -/
structure HeadRead (parts : Bytes × Bytes) (log : Log Credentials) : Prop where
  head : IsHead parts.1
  taken : log.taken = parts.1 ++ parts.2
  written : log.written = []
  asked : log.asked = []

theorem readHead_safe {buf : Bytes} (hnone : position headerEnd buf = none)
    (htaken : log.taken = buf) (hwritten : log.written = []) (hasked : log.asked = []) :
    (readHead buf).Safe SuccessGranted HeadRead log := by
  induction hwork : maxHeaderBytes + 1 - buf.length using Nat.strongRecOn generalizing buf log with
  | ind work ih =>
      rw [readHead]
      have hnow : ∀ chunk, SuccessGranted (log.take chunk) := fun chunk =>
        .of_short (by simp [hwritten])
      refine ⟨by simpa using hnow [], fun chunk _ => ?_⟩
      dsimp only
      by_cases hchunk : chunk = []
      · rw [dif_pos hchunk]
        exact hnow chunk
      rw [dif_neg hchunk]
      have hpos := List.length_pos_iff.mpr hchunk
      have hresume : position headerEnd (buf ++ chunk) = (position headerEnd
          ((buf ++ chunk).drop (buf.length - 3))).map (buf.length - 3 + ·) :=
        position_resume headerEnd_ne_nil hnone
      have hlater : (log.take chunk).taken = buf ++ chunk := by rw [Log.take_taken, htaken]
      have hsilent : (log.take chunk).written = [] := hwritten
      split
      · rename_i i hscan
        rw [hscan, Option.map_some] at hresume
        split
        · exact httpFail_safe hsilent _ _
        · refine ⟨hnow chunk, isHead_take hresume, ?_, hwritten, hasked⟩
          rw [hlater, List.take_append_drop]
      · rename_i hscan
        rw [hscan, Option.map_none] at hresume
        split
        · exact httpFail_safe hsilent _ _
        · rename_i hsmall
          have hlength : (buf ++ chunk).length = buf.length + chunk.length := List.length_append
          exact ih _ (by omega) hresume hlater hsilent hasked rfl

theorem checkStrict_safe (options : ServerOptions) (lines : HeadLines)
    (hwritten : log.written = []) :
    (checkStrict options lines).Safe SuccessGranted (fun _ after => after = log) log := by
  have hnow : SuccessGranted log := .of_short (by simp [hwritten])
  unfold checkStrict
  split
  · split
    · exact ⟨hnow, rfl⟩
    · exact httpFail_safe hwritten _ _
    · exact httpFail_safe hwritten _ _
  · exact ⟨hnow, rfl⟩

theorem checkRequestLine_safe (line : Bytes) (hwritten : log.written = []) :
    (checkRequestLine line).Safe SuccessGranted
      (fun target after => after = log ∧ CleanTarget target) log := by
  have hnow : SuccessGranted log := .of_short (by simp [hwritten])
  unfold checkRequestLine
  dsimp only
  split
  · exact httpFail_safe hwritten _ _
  · split
    · exact httpFail_safe hwritten _ _
    · split
      · exact httpFail_safe hwritten _ _
      · rename_i hclean
        split
        · exact httpFail_safe hwritten _ _
        · rename_i hparse
          simp only [List.any_eq_true, not_exists, not_and, Bool.not_eq_true] at hclean
          exact ⟨hnow, rfl, by simpa [Option.isSome_iff_ne_none] using hparse, hclean⟩

theorem proxyAuthorization_iff {line value : Bytes} :
    proxyAuthorization line = some value ↔ Authorizes line value := by
  rw [proxyAuthorization]
  constructor
  · intro hvalue
    split at hvalue
    · cases hvalue
    · obtain ⟨⟨name, rest⟩, hsplit, hnamed⟩ := Option.bind_eq_some_iff.mp hvalue
      obtain ⟨rfl, hcolon⟩ := splitOnce_eq_some.mp hsplit
      dsimp only at hnamed
      split at hnamed
      · rename_i hname
        exact ⟨name, rest, rfl, hcolon, hname, Option.some.inj hnamed⟩
      · cases hnamed
  · rintro ⟨name, rest, rfl, hcolon, hname, rfl⟩
    rw [if_neg (by simp), splitOnce_eq_some.mpr ⟨rfl, hcolon⟩, Option.bind_some]
    exact if_pos hname

/-- The first field of the head that names credentials. -/
def FirstField (lines : List Bytes) (value : Bytes) : Prop :=
  ∃ before line after, lines = before ++ line :: after ∧
    (∀ other ∈ before, proxyAuthorization other = none) ∧ proxyAuthorization line = some value

theorem authValue_safe (lines : List Bytes) (hwritten : log.written = []) :
    (authValue lines).Safe SuccessGranted
      (fun value after => after = log ∧ ∀ text, value = some text → FirstField lines text) log := by
  have hnow : SuccessGranted log := .of_short (by simp [hwritten])
  induction lines with
  | nil => exact ⟨hnow, rfl, fun text htext => by cases htext⟩
  | cons line rest ih =>
      rw [authValue]
      cases hline : proxyAuthorization line with
      | none =>
          refine ih.mono fun value after _ hvalue => ⟨hvalue.1, fun text htext => ?_⟩
          obtain ⟨before, field, behind, rfl, hbefore, hfield⟩ := hvalue.2 text htext
          refine ⟨line :: before, field, behind, rfl, fun other hother => ?_, hfield⟩
          obtain rfl | hother := List.mem_cons.mp hother
          · exact hline
          · exact hbefore other hother
      | some value =>
          dsimp only
          split
          · refine ⟨hnow, rfl, fun text htext => ?_⟩
            obtain rfl := Option.some.inj htext
            exact ⟨[], line, rest, rfl, List.forall_mem_nil _, hline⟩
          · exact httpFail_safe hwritten _ _

structure Basic (base64 : Base64) (value : Bytes) (pair : Bytes × Bytes) : Prop where
  spelled : ∃ scheme token, value = scheme ++ 0x20 :: token ∧ (0x20 : UInt8) ∉ scheme ∧
    eqIgnoreAsciiCase scheme (lit "Basic") = true ∧
    base64.decode (trim token) = some (pair.1 ++ 0x3A :: pair.2)
  colon : (0x3A : UInt8) ∉ pair.1
  user : isUtf8 pair.1 = true
  password : isUtf8 pair.2 = true

theorem basicCredentials_safe (base64 : Base64) (value : Bytes) (hwritten : log.written = []) :
    (basicCredentials base64 value).Safe SuccessGranted
      (fun pair after => after = log ∧ Basic base64 value pair) log := by
  have hnow : SuccessGranted log := .of_short (by simp [hwritten])
  unfold basicCredentials
  split
  · exact httpFail_safe hwritten _ _
  · rename_i scheme token hvalue
    obtain ⟨rfl, hscheme⟩ := splitOnce_eq_some.mp hvalue
    split
    · exact httpFail_safe hwritten _ _
    · rename_i hbasic
      split
      · exact httpFail_safe hwritten _ _
      · rename_i decoded hdecoded
        split
        · exact httpFail_safe hwritten _ _
        · rename_i hutf8
          split
          · exact httpFail_safe hwritten _ _
          · rename_i pair hpair
            obtain ⟨rfl, hcolon⟩ := splitOnce_eq_some.mp hpair
            have htext : isUtf8 (pair.1 ++ 0x3A :: pair.2) = true := by simpa using hutf8
            obtain ⟨huser, hpassword⟩ := isUtf8_split (by decide) htext
            exact ⟨hnow, rfl, ⟨scheme, token, rfl, hscheme, by simpa using hbasic, hdecoded⟩,
              hcolon, huser, hpassword⟩

theorem verifyBasic_safe (options : ServerOptions) (user password : Bytes)
    (hwritten : log.written = []) (hasked : log.asked = []) :
    (verifyBasic options user password).Safe SuccessGranted
      (fun identity after => identity.username = some user ∧ options.password = true ∧
        after.asked = [(Credentials.new user password, true)] ∧ after.taken = log.taken) log := by
  have hnow : SuccessGranted log := .of_short (by simp [hwritten])
  unfold verifyBasic
  split
  · exact httpFail_safe hwritten _ _
  · rename_i hpassword
    simp only [call, ask_bind, ok_bind]
    refine ⟨hnow, fun answer => ?_⟩
    cases answer with
    | true =>
        refine ⟨.of_short (by simp [hwritten]), rfl, by simpa using hpassword, ?_, rfl⟩
        rw [Log.ask_asked, hasked, List.nil_append]
    | false =>
        have hunanswered : (log.ask (Credentials.new user password) false).written = [] := hwritten
        exact httpFail_safe hunanswered _ _

theorem serveHead_safe (base64 : Base64) (options : ServerOptions) {head pipeline : Bytes}
    (hread : HeadRead (head, pipeline) log) :
    (serveHead base64 options head pipeline).Safe SuccessGranted (Accepted base64 options) log := by
  obtain ⟨hhead, htaken, hwritten, hasked⟩ := hread
  have hnow : SuccessGranted log := .of_short (by simp [hwritten])
  unfold serveHead
  dsimp only
  split
  · exact httpFail_safe hwritten _ _
  refine Safe.bind ((checkStrict_safe options _ hwritten).mono ?_)
  rintro _ _ _ rfl
  refine Safe.bind ((checkRequestLine_safe _ hwritten).mono ?_)
  rintro target _ _ ⟨rfl, hclean⟩
  refine Safe.bind ((authValue_safe _ hwritten).mono ?_)
  rintro value _ _ ⟨rfl, hfield⟩
  cases value with
  | none =>
      unfold identify
      dsimp only
      split
      · rename_i hanonymous
        exact ⟨hnow, .inr ⟨rfl, hanonymous, hasked⟩, hclean, fun hsocks => by cases hsocks⟩
      · exact httpFail_safe hwritten _ _
  | some value =>
      rw [identify]
      refine Safe.bind (Safe.bind ((basicCredentials_safe base64 value hwritten).mono ?_))
      rintro ⟨user, password⟩ _ _ ⟨rfl, hbasic⟩
      refine (verifyBasic_safe options user password hwritten hasked).mono ?_
      rintro identity after hinv ⟨hname, henabled, hone, hsame⟩
      obtain ⟨before, line, behind, hlines, hbefore, hline⟩ := hfield value rfl
      obtain ⟨⟨scheme, token, rfl, hscheme, hcase, hdecode⟩, hcolon, huser, hpassword⟩ := hbasic
      obtain ⟨hjoined, hopen⟩ := head_joined hhead fun hnone => by
        rw [hnone] at hlines
        exact List.append_ne_nil_of_right_ne_nil before (List.cons_ne_nil _ _) hlines.symm
      rw [hlines] at hjoined hopen
      refine ⟨hinv, .inl ⟨_, user, password, hname, henabled, hone, ?_, .inl ⟨huser, rfl, rfl⟩,
        .inl ⟨hpassword, rfl, rfl⟩⟩, hclean, fun hsocks => by cases hsocks⟩
      refine ⟨_, before, line, behind, pipeline, scheme, token, ?_, hjoined ▸ hhead, hopen, ?_,
        proxyAuthorization_iff.mp hline, hscheme, hcase, hdecode, hcolon⟩
      · rw [hsame, htaken, List.cons_append, ← hjoined]
      · intro other hother value hvalue
        rw [← proxyAuthorization_iff, hbefore other hother] at hvalue
        cases hvalue

theorem http_safe (base64 : Base64) (options : ServerOptions) (first : UInt8) :
    (http base64 options first).Safe SuccessGranted (Accepted base64 options) ⟨[first], [], []⟩ := by
  have hnone : position headerEnd [first] = none := by
    simp [position, headerEnd, crlf, List.isPrefixOf]
  rw [http]
  refine Safe.bind ((readHead_safe hnone rfl rfl rfl).mono ?_)
  rintro ⟨head, pipeline⟩ after _ hread
  exact serveHead_safe base64 options hread

theorem accept_safe (base64 : Base64) (options : ServerOptions) :
    (accept base64 options).Safe SuccessGranted (Accepted base64 options) Log.empty := by
  have hshort : ∀ bytes, SuccessGranted (Log.take Log.empty bytes) :=
    fun bytes => .of_short (by simp [Log.empty])
  simp only [accept, readSome, read_bind, ok_bind]
  refine ⟨hshort [], fun chunk hchunk => ?_⟩
  cases chunk with
  | nil => exact hshort []
  | cons first rest =>
      obtain rfl : rest = [] := List.length_eq_zero_iff.mp (Nat.le_zero.mp (Nat.le_of_succ_le_succ hchunk))
      dsimp only
      split
      · rename_i hfive
        rw [hfive]
        exact socks_safe base64 options
      · split
        · exact http_safe base64 options first
        · exact hshort [first]

end

/-- Nobody gets in who was not verified with what was sent, or let in anonymously by the options;
SOCKS5 tells nobody otherwise, and the target is one that can be parsed. -/
theorem authentication_sound (base64 : Base64) (options : ServerOptions)
    {events : List (Event Credentials)} {prog : ServerProg IncomingRequest}
    (hruns : Runs (accept base64 options) events prog) :
    ([5, 2, 1, 0] <+: (Log.of events).written →
      ∃ credentials, (Log.of events).asked = [(credentials, true)]) ∧
    ∀ request, prog = ok request →
      Authentic base64 options request.protocol request.username (Log.of events) ∧
      (HostPort.parse request.target).isSome = true ∧
      ∀ b ∈ request.target, isUnprintable b = false := by
  have hsafe := (accept_safe base64 options).runs hruns
  refine ⟨hsafe.now, ?_⟩
  rintro request rfl
  obtain ⟨_, hauthentic, hclean, _⟩ := hsafe
  exact ⟨hauthentic, hclean⟩

def grantedHead : Bytes :=
  lit "CONNECT h:1 HTTP/1.1" ++ crlf ++ lit "Host: h:1" ++ crlf ++
    lit "proxy-authorization : Basic dTpw" ++ headerEnd

/-- One who names itself and is granted, under either protocol. -/
theorem authentication_sound_granted :
    let options : ServerOptions := ⟨false, true, false, false, false⟩
    let request : IncomingRequest := ⟨.socks5, lit "1.2.3.4:80", some [0x75], none, none, []⟩
    let connect : IncomingRequest := ⟨.http, lit "h:1", some [0x75], none, none, lit "A"⟩
    (∃ events : List (Event Credentials),
      Runs (accept Base64.standard options) events (ok request) ∧
      Authentic Base64.standard options .socks5 (some [0x75]) (Log.of events)) ∧
    ∃ events : List (Event Credentials),
      Runs (accept Base64.standard options) events (ok connect) ∧
      Authentic Base64.standard options .http (some [0x75]) (Log.of events) := by
  intro options request connect
  have hruns : Runs (accept Base64.standard options)
      [.take [5], .take [1], .take [2], .put [5, 2], .take [1, 1], .take [0x75], .take [1],
        .take [0x70], .asked ⟨[0x75], [0x70], none, none⟩ true, .put [1, 0], .take [5, 1, 0, 1],
        .take [1, 2, 3, 4], .take [0, 80]] (ok request) :=
    .cons (.read (by decide) (by decide)) <| .cons (.fill (by decide) (by decide)) <|
      .cons (.fill (by decide) (by decide)) <| .cons (.putAll _ _) <|
      .cons (.fill (by decide) (by decide)) <| .cons (.fill (by decide) (by decide)) <|
      .cons (.fill (by decide) (by decide)) <| .cons (.fill (by decide) (by decide)) <|
      .cons (.ask true) <| .cons (.putAll _ _) <|
      .cons (.fill (by decide) (by decide)) <| .cons (.fill (by decide) (by decide)) <|
      .cons (.fill (by decide) (by decide)) <| .nil _
  have hserve : serveHead Base64.standard options grantedHead (lit "A") =
      verifyBasic options [0x75] [0x70] >>= fun identity => ok
        ⟨.http, lit "h:1", identity.username, none, identity.retained, lit "A"⟩ := by
    rw [serveHead]
    rfl
  have hhead : Step (http Base64.standard options 0x43) (.take (grantedHead.tail ++ lit "A"))
      (serveHead Base64.standard options grantedHead (lit "A")) := by
    rw [http, readHead, read_bind]
    exact .read (by decide +kernel) (by decide)
  rw [hserve] at hhead
  have hconnect : Runs (accept Base64.standard options)
      [.take [0x43], .take (grantedHead.tail ++ lit "A"),
        .asked ⟨[0x75], [0x70], none, none⟩ true] (ok connect) :=
    .cons (.read (show [(0x43 : UInt8)].length ≤ 1 by decide) (List.cons_ne_nil _ _)) <|
      .cons hhead <| .cons (.ask true) <| .nil _
  exact ⟨⟨_, hruns, ((authentication_sound Base64.standard options hruns).2 request rfl).1⟩,
    ⟨_, hconnect, ((authentication_sound Base64.standard options hconnect).2 connect rfl).1⟩⟩

end Resocks5.Inbound
