import Resocks5.Foundation.Numeral
import Resocks5.Foundation.Run

namespace Resocks5.Logger

open Resocks5.Foundation

/-! Log records on their way from the tasks of the server to the sinks. -/

abbrev Text := List Char

def isControl (c : Char) : Bool :=
  decide (c.toNat < 0x20 ∨ (0x7F ≤ c.toNat ∧ c.toNat ≤ 0x9F))

def backslash : Char := Char.ofNat 0x5C

/-- `char::escape_default`. -/
def escapeDefault (c : Char) : Text :=
  if c.toNat = 0x09 then [backslash, 't']
  else if c.toNat = 0x0D then [backslash, 'r']
  else if c.toNat = 0x0A then [backslash, 'n']
  else if c.toNat = 0x27 ∨ c.toNat = 0x22 ∨ c.toNat = 0x5C then [backslash, c]
  else if 0x20 ≤ c.toNat ∧ c.toNat ≤ 0x7E then [c]
  else
    [backslash, 'u', Char.ofNat 0x7B] ++ (render 16 c.toNat).map (fun b => Char.ofNat b.toNat) ++
      [Char.ofNat 0x7D]

/-- Control characters are written out, so that a record stays on one line. -/
def escape (message : Text) : Text :=
  if message.any isControl then
    message.flatMap fun c => if isControl c then escapeDefault c else [c]
  else message

inductive ELog where
  | log (message : Text)
  | error (message : Text)
  deriving DecidableEq, Repr

namespace ELog

def message : ELog → Text
  | log message | error message => message

def isError : ELog → Bool
  | log _ => false
  | error _ => true

end ELog

structure LogConfig where
  lifecycle : Bool
  cacheAttempts : Bool
  cacheHits : Bool
  cacheWrites : Bool
  proxyFailures : Bool
  bannedTargets : Bool
  connectionErrors : Bool
  clientDisconnects : Bool
  attempts : Bool
  tunnels : Bool

/-- One method of the logger: the flag that lets it through, and what it wraps a message in. -/
structure Method where
  flag : LogConfig → Bool
  wrap : Text → ELog
  message_wrap : ∀ message, (wrap message).message = message

namespace Method

def lifecycle : Method := ⟨LogConfig.lifecycle, .log, fun _ => rfl⟩

def cacheAttempt : Method := ⟨LogConfig.cacheAttempts, .log, fun _ => rfl⟩

def cacheHit : Method := ⟨LogConfig.cacheHits, .log, fun _ => rfl⟩

def cacheWrite : Method := ⟨LogConfig.cacheWrites, .log, fun _ => rfl⟩

def proxyFailure : Method := ⟨LogConfig.proxyFailures, .error, fun _ => rfl⟩

def bannedTarget : Method := ⟨LogConfig.bannedTargets, .error, fun _ => rfl⟩

def connectionError : Method := ⟨LogConfig.connectionErrors, .error, fun _ => rfl⟩

def clientDisconnect : Method := ⟨LogConfig.clientDisconnects, .error, fun _ => rfl⟩

def attempt : Method := ⟨LogConfig.attempts, .log, fun _ => rfl⟩

def tunnel : Method := ⟨LogConfig.tunnels, .log, fun _ => rfl⟩

end Method

structure Stamp where
  text : Text
  clean : ∀ c ∈ text, isControl c = false

structure FileLogConfig where
  enabled : Bool
  alsoConsole : Bool

/-- The channel and the sinks. `reserved` slots of the channel are promised to senders that have
not sent yet; `file` is whether the file is still written to. -/
structure LogWorld where
  queue : List ELog
  reserved : Nat
  file : Bool
  written : Bytes
  out : List Text
  err : List Text

def channelSlots : Nat := 2048

/-- `openable` is whether the log file could be opened; what it holds from `earlier` is kept. -/
def LogWorld.start (file : FileLogConfig) (openable : Bool) (earlier : Bytes) : LogWorld :=
  ⟨[], 0, file.enabled && openable, earlier, [], []⟩

/-- What a sender or the drain does next; `fault` is how many bytes of a line reach a file that
fails. -/
inductive LogEvent where
  | reserve (method : Method)
  | refuse (method : Method) (message : Text)
  | giveBack
  | send (method : Method) (message : Text)
  | receive (stamp : Stamp) (fault : Option Nat)

def lineText (stamp : Stamp) (record : ELog) : Text := stamp.text ++ [':', ' '] ++ record.message

def line (stamp : Stamp) (record : ELog) : Text := lineText stamp record ++ ['\n']

def encode (text : Text) : Bytes := text.flatMap String.utf8EncodeChar

namespace LogWorld

/-- `write_and_flush_line`; after a failure the file is given up. -/
def writeLine (world : LogWorld) (text : Text) (fault : Option Nat) : LogWorld :=
  if world.file then
    match fault with
    | none => { world with written := world.written ++ encode text }
    | some length =>
      { world with written := world.written ++ (encode text).take length, file := false }
  else world

def console (world : LogWorld) (config : FileLogConfig) (record : ELog) (text : Text) :
    LogWorld :=
  if !world.file || config.alsoConsole then
    match record with
    | .log _ => { world with out := world.out ++ [text] }
    | .error _ => { world with err := world.err ++ [text] }
  else world

def full (world : LogWorld) : Bool := decide (channelSlots ≤ world.queue.length + world.reserved)

def step (config : LogConfig) (file : FileLogConfig) (world : LogWorld) :
    LogEvent → Option LogWorld
  | .reserve method =>
    if method.flag config && !world.full then
      some { world with reserved := world.reserved + 1 }
    else none
  | .refuse method _ => if method.flag config && world.full then some world else none
  | .giveBack =>
    if 0 < world.reserved then some { world with reserved := world.reserved - 1 } else none
  | .send method message =>
    if method.flag config && decide (0 < world.reserved) then
      some { world with
        queue := world.queue ++ [method.wrap (escape message)]
        reserved := world.reserved - 1 }
    else none
  | .receive stamp fault =>
    match world.queue with
    | [] => none
    | record :: rest =>
      let text := line stamp record
      some (({ world with queue := rest }.writeLine text fault).console file record text)

end LogWorld

/-! No record can begin a line of its own. -/

theorem render_clean {n : Nat} {c : Char}
    (hmem : c ∈ (render 16 n).map fun b => Char.ofNat b.toNat) : isControl c = false := by
  obtain ⟨b, hb, rfl⟩ := List.mem_map.mp hmem
  have hall : ∀ b : UInt8, isDigit 16 b = true → isControl (Char.ofNat b.toNat) = false :=
    allBytes (by decide +kernel)
  exact hall b (render_digits (by decide) (by decide) n b hb)

theorem clean_of_all {text : Text} (hall : text.all (!isControl ·) = true) :
    ∀ c ∈ text, isControl c = false := by
  simpa using hall

theorem escapeDefault_clean (c : Char) : ∀ d ∈ escapeDefault c, isControl d = false := by
  have hpair {letter : Char} (hletter : isControl letter = false) :
      ∀ d ∈ [backslash, letter], isControl d = false := by
    intro d hd
    obtain rfl | hd := List.mem_cons.mp hd
    · decide
    · rw [List.mem_singleton.mp hd]
      exact hletter
  unfold escapeDefault
  split
  · exact hpair (by decide)
  · split
    · exact hpair (by decide)
    · split
      · exact hpair (by decide)
      · split
        · rename_i hquoted
          exact hpair (decide_eq_false (by omega))
        · split
          · rename_i hprintable
            intro d hd
            rw [List.mem_singleton.mp hd]
            exact decide_eq_false (by omega)
          · intro d hd
            rw [List.mem_append, List.mem_append, List.mem_singleton] at hd
            obtain (hopen | hdigit) | rfl := hd
            · exact clean_of_all (by decide) d hopen
            · exact render_clean hdigit
            · decide

theorem escape_clean (message : Text) : ∀ c ∈ escape message, isControl c = false := by
  intro c hc
  unfold escape at hc
  split at hc
  · obtain ⟨original, -, hmem⟩ := List.mem_flatMap.mp hc
    split at hmem
    · exact escapeDefault_clean original c hmem
    · rename_i hclean
      rw [List.mem_singleton.mp hmem]
      exact Bool.eq_false_iff.mpr hclean
  · rename_i hclean
    by_contra hcontrol
    exact hclean (List.any_eq_true.mpr ⟨c, hc, Bool.not_eq_false _ ▸ hcontrol⟩)

theorem lineText_clean (stamp : Stamp) {record : ELog}
    (hrecord : ∀ c ∈ record.message, isControl c = false) :
    ∀ c ∈ lineText stamp record, isControl c = false := by
  intro c hc
  rw [lineText, List.mem_append, List.mem_append] at hc
  obtain (hstamp | hcolon) | hmessage := hc
  · exact stamp.clean c hstamp
  · exact clean_of_all (by decide) c hcolon
  · exact hrecord c hmessage

theorem utf8EncodeChar_newline {c : Char} (hmem : 0x0A ∈ String.utf8EncodeChar c) : c = '\n' := by
  have hbyte {n : Nat} (hn : 0x0A = UInt8.ofNat n) : n % 256 = 10 := by
    rw [← UInt8.toNat_ofNat', ← hn]
    rfl
  unfold String.utf8EncodeChar at hmem
  dsimp only at hmem
  split at hmem
  · rename_i hsmall
    have hvalue := hbyte (List.mem_singleton.mp hmem)
    refine Char.ext (UInt32.toNat_inj.mp ?_)
    rw [Nat.mod_eq_of_lt (by omega)] at hvalue
    exact hvalue
  · exfalso
    split at hmem
    · obtain hmem | hmem := List.mem_cons.mp hmem
      · have := hbyte hmem
        omega
      · have := hbyte (List.mem_singleton.mp hmem)
        omega
    · split at hmem
      · simp only [List.mem_cons, List.not_mem_nil, or_false] at hmem
        obtain hmem | hmem | hmem := hmem
        all_goals
          have := hbyte hmem
          omega
      · simp only [List.mem_cons, List.not_mem_nil, or_false] at hmem
        obtain hmem | hmem | hmem | hmem := hmem
        all_goals
          have := hbyte hmem
          omega

theorem encode_clean {text : Text} (hclean : ∀ c ∈ text, isControl c = false) :
    0x0A ∉ encode text := by
  intro hmem
  obtain ⟨c, hc, hbyte⟩ := List.mem_flatMap.mp hmem
  rw [utf8EncodeChar_newline hbyte] at hc
  exact absurd (hclean _ hc) (by decide)

theorem encode_line (stamp : Stamp) (record : ELog) :
    encode (line stamp record) = encode (lineText stamp record) ++ [0x0A] := by
  rw [line, encode, List.flatMap_append]
  rfl

theorem splitOn_lines {lines : List Bytes} (hclean : ∀ text ∈ lines, 0x0A ∉ text) (rest : Bytes) :
    ((lines.map (· ++ [0x0A])).flatten ++ rest).splitOn 0x0A = lines ++ rest.splitOn 0x0A := by
  induction lines with
  | nil => rfl
  | cons text lines ih =>
    obtain ⟨htext, hlines⟩ := List.forall_mem_cons.mp hclean
    rw [List.map_cons, List.flatten_cons, List.append_assoc, List.append_assoc,
      List.singleton_append, List.splitOn_append_cons_self_of_not_mem htext, ih hlines]
    rfl

theorem splitOn_clean_append {last : Bytes} (hclean : 0x0A ∉ last) {back first : Bytes}
    {rest : List Bytes} (hback : back.splitOn 0x0A = first :: rest) :
    (last ++ back).splitOn 0x0A = (last ++ first) :: rest := by
  induction last with
  | nil => exact hback
  | cons b last ih =>
    obtain ⟨hne, hlast⟩ := not_or.mp (List.mem_cons.not.mp hclean)
    rw [List.cons_append, List.splitOn_cons_eq_if_modifyHead,
      if_neg (by simpa using Ne.symm hne), ih hlast]
    rfl

theorem splitOn_append (front : Bytes) :
    ∃ lines last, front.splitOn 0x0A = lines ++ [last] ∧ last <:+ front ∧
      (front = [] ∨ front.getLast? = some 0x0A → last = []) ∧
      ∀ (back : Bytes) first rest, back.splitOn 0x0A = first :: rest →
        (front ++ back).splitOn 0x0A = lines ++ (last ++ first) :: rest := by
  cases hsplit : rsplitOnce 0x0A front with
  | none =>
    have hclean : 0x0A ∉ front := rsplitOnce_eq_none.mp hsplit
    refine ⟨[], front, List.splitOn_eq_singleton hclean, List.suffix_refl _, ?_, ?_⟩
    · rintro (rfl | hlast)
      · rfl
      · exact absurd (List.mem_of_getLast? hlast) hclean
    · exact fun back first rest hback => splitOn_clean_append hclean hback
  | some parts =>
    obtain ⟨body, last⟩ := parts
    obtain ⟨rfl, hclean⟩ := rsplitOnce_eq_some.mp hsplit
    refine ⟨body.splitOn 0x0A, last, ?_, ⟨body ++ [0x0A], by simp⟩, ?_, ?_⟩
    · rw [List.splitOn_append_cons_self, List.splitOn_eq_singleton hclean]
    · rintro (hnil | hlast)
      · simp at hnil
      · by_contra hne
        rw [List.getLast?_append_of_ne_nil _ (List.cons_ne_nil _ _),
          List.getLast?_cons_of_ne_nil hne] at hlast
        exact hclean (List.mem_of_getLast? hlast)
    · intro back first rest hback
      rw [List.append_assoc, List.cons_append, List.splitOn_append_cons_self,
        splitOn_clean_append hclean hback]

/-! What has become of every record. -/

def sentRecord : LogEvent → Option ELog
  | .send method message => some (method.wrap (escape message))
  | _ => none

def stampOf : LogEvent → Option Stamp
  | .receive stamp _ => some stamp
  | _ => none

abbrev Entry := Stamp × ELog

namespace Entry

def text (entry : Entry) : Text := lineText entry.1 entry.2

def line (entry : Entry) : Text := Logger.line entry.1 entry.2

def bytes (entry : Entry) : Bytes := encode entry.line

end Entry

def linesOf (isError : Bool) (entries : List Entry) : List Text :=
  (entries.filter (·.2.isError == isError)).map Entry.line

/-- What has been offered to the console, by the kind of its records. -/
def LogWorld.sink (world : LogWorld) : Bool → List Text
  | false => world.out
  | true => world.err

/-- What goes to the console, where `inFile` is in the file and `others` is not. -/
def offered (config : FileLogConfig) (inFile others : List Entry) : List Entry :=
  if config.alsoConsole then inFile ++ others else others

/-- `inFile` is whole in the file, behind what it held; the file ends inside the line after them, if
it failed. -/
structure Sunk (config : FileLogConfig) (earlier : Bytes) (world : LogWorld)
    (inFile others : List Entry) (torn : Bytes) : Prop where
  written : world.written = earlier ++ ((inFile.map Entry.bytes).flatten ++ torn)
  tears : torn = [] ∨ ∃ entry rest, others = entry :: rest ∧ torn <+: entry.bytes
  whole : world.file = true → others = [] ∧ torn = []
  console : ∀ isError, world.sink isError = linesOf isError (offered config inFile others)

/-- The records leave the channel in the order in which they were sent. -/
structure Kept (config : FileLogConfig) (earlier : Bytes) (sent : List ELog) (stamps : List Stamp)
    (world : LogWorld) : Prop where
  room : world.queue.length + world.reserved ≤ channelSlots
  entries : ∃ inFile others torn, (inFile ++ others).map Prod.fst = stamps ∧
    (inFile ++ others).map Prod.snd ++ world.queue = sent ∧
    Sunk config earlier world inFile others torn
  clean : ∀ record ∈ sent, ∀ c ∈ record.message, isControl c = false

variable {config : LogConfig} {file : FileLogConfig} {earlier : Bytes} {sent : List ELog} {stamps : List Stamp}
  {world next : LogWorld}

theorem linesOf_append (isError : Bool) (before after : List Entry) :
    linesOf isError (before ++ after) = linesOf isError before ++ linesOf isError after := by
  rw [linesOf, List.filter_append, List.map_append, linesOf, linesOf]

def LogWorld.offers (world : LogWorld) (file : FileLogConfig) (entry : Entry) : List Entry :=
  if !world.file || file.alsoConsole then [entry] else []

theorem LogWorld.console_sink (world : LogWorld) (file : FileLogConfig) (entry : Entry)
    (isError : Bool) :
    (world.console file entry.2 entry.line).sink isError =
      world.sink isError ++ linesOf isError (world.offers file entry) := by
  obtain ⟨stamp, record⟩ := entry
  unfold LogWorld.console LogWorld.offers
  split
  · cases record with
    | log message =>
      cases isError with
      | false => rfl
      | true => exact (List.append_nil _).symm
    | error message =>
      cases isError with
      | false => exact (List.append_nil _).symm
      | true => rfl
  · exact (List.append_nil _).symm

theorem LogWorld.console_frame (world : LogWorld) (file : FileLogConfig) (entry : Entry) :
    (world.console file entry.2 entry.line).written = world.written ∧
      (world.console file entry.2 entry.line).file = world.file ∧
      (world.console file entry.2 entry.line).queue = world.queue ∧
      (world.console file entry.2 entry.line).reserved = world.reserved := by
  unfold LogWorld.console
  split
  · cases entry.2 <;> exact ⟨rfl, rfl, rfl, rfl⟩
  · exact ⟨rfl, rfl, rfl, rfl⟩

theorem LogWorld.writeLine_frame (world : LogWorld) (text : Text) (fault : Option Nat) :
    (world.writeLine text fault).queue = world.queue ∧
      (world.writeLine text fault).reserved = world.reserved := by
  unfold LogWorld.writeLine
  split
  · cases fault <;> exact ⟨rfl, rfl⟩
  · exact ⟨rfl, rfl⟩

theorem Sunk.of_console {inFile others before : List Entry} {torn : Bytes} {entry : Entry}
    (hwritten : world.written = earlier ++ ((inFile.map Entry.bytes).flatten ++ torn))
    (htears : torn = [] ∨ ∃ first rest, others = first :: rest ∧ torn <+: first.bytes)
    (hwhole : world.file = true → others = [] ∧ torn = [])
    (hsink : ∀ isError, world.sink isError = linesOf isError before)
    (hoffered : offered file inFile others = before ++ world.offers file entry) :
    Sunk file earlier (world.console file entry.2 entry.line) inFile others torn := by
  obtain ⟨hsame, hfile, -, -⟩ := world.console_frame file entry
  refine ⟨hsame.trans hwritten, htears, fun hopen => hwhole (hfile ▸ hopen), fun isError => ?_⟩
  rw [world.console_sink, hsink, hoffered, linesOf_append]

/-- The drain goes on: the entry is whole in the file, or the file ends in it, or it had ended. -/
theorem Sunk.receive {inFile others : List Entry} {torn : Bytes}
    (hsunk : Sunk file earlier world inFile others torn) (entry : Entry) (fault : Option Nat) :
    ∃ inFile' others' torn', inFile' ++ others' = inFile ++ others ++ [entry] ∧
      Sunk file earlier ((world.writeLine entry.line fault).console file entry.2 entry.line) inFile'
        others' torn' := by
  cases hopen : world.file with
  | false =>
    have hsame : world.writeLine entry.line fault = world := by
      unfold LogWorld.writeLine
      exact if_neg (by rw [hopen]; exact Bool.false_ne_true)
    rw [hsame]
    refine ⟨inFile, others ++ [entry], torn, (List.append_assoc _ _ _).symm, ?_⟩
    refine .of_console hsunk.written (hsunk.tears.imp_right ?_) (fun htrue => ?_) hsunk.console ?_
    · rintro ⟨first, rest, rfl, htorn⟩
      exact ⟨first, rest ++ [entry], rfl, htorn⟩
    · rw [hopen] at htrue
      cases htrue
    · have hoffers : world.offers file entry = [entry] := by rw [LogWorld.offers, hopen]; rfl
      rw [hoffers]
      unfold offered
      split
      · rw [List.append_assoc]
      · rfl
  | true =>
    obtain ⟨rfl, rfl⟩ := hsunk.whole hopen
    have hwritten := hsunk.written
    rw [List.append_nil] at hwritten
    unfold LogWorld.writeLine
    rw [if_pos hopen]
    cases fault with
    | none =>
      refine ⟨inFile ++ [entry], [], [], by simp, ?_⟩
      refine .of_console ?_ (.inl rfl) (fun _ => ⟨rfl, rfl⟩) hsunk.console ?_
      · simp [hwritten, Entry.bytes]
      · unfold offered LogWorld.offers
        cases file.alsoConsole <;> simp [hopen]
    | some length =>
      refine ⟨inFile, [entry], entry.bytes.take length, by simp, ?_⟩
      refine .of_console ?_ (.inr ⟨entry, [], rfl, List.take_prefix _ _⟩)
        (fun hclosed => by cases hclosed) hsunk.console ?_
      · simp [hwritten, Entry.bytes]
      · unfold offered LogWorld.offers
        cases file.alsoConsole <;> simp

theorem Kept.send (hkept : Kept file earlier sent stamps world) (method : Method) (message : Text)
    (hreserved : 0 < world.reserved) :
    Kept file earlier (sent ++ [method.wrap (escape message)]) stamps
      { world with
        queue := world.queue ++ [method.wrap (escape message)]
        reserved := world.reserved - 1 } := by
  obtain ⟨hroom, ⟨inFile, others, torn, hstamps, hsent, hsunk⟩, hclean⟩ := hkept
  refine ⟨?_, ⟨inFile, others, torn, hstamps, ?_, ?_⟩, ?_⟩
  · simp only [List.length_append, List.length_singleton]
    omega
  · rw [← hsent, List.append_assoc]
  · exact ⟨hsunk.written, hsunk.tears, hsunk.whole, hsunk.console⟩
  · intro record hrecord
    obtain hold | hnew := List.mem_append.mp hrecord
    · exact hclean record hold
    · rw [List.mem_singleton.mp hnew, method.message_wrap]
      exact escape_clean message

theorem Kept.receive (hkept : Kept file earlier sent stamps world) {record : ELog} {rest : List ELog}
    (hqueue : world.queue = record :: rest) (stamp : Stamp) (fault : Option Nat) :
    Kept file earlier sent (stamps ++ [stamp])
      (({ world with queue := rest }.writeLine (line stamp record) fault).console file record
        (line stamp record)) := by
  obtain ⟨hroom, ⟨inFile, others, torn, hstamps, hsent, hsunk⟩, hclean⟩ := hkept
  have hmoved : Sunk file earlier { world with queue := rest } inFile others torn :=
    ⟨hsunk.written, hsunk.tears, hsunk.whole, hsunk.console⟩
  obtain ⟨inFile', others', torn', hentries, hsunk'⟩ := hmoved.receive (stamp, record) fault
  obtain ⟨-, -, hrest, hreserved⟩ :=
    ({ world with queue := rest }.writeLine (line stamp record) fault).console_frame file
      (stamp, record)
  obtain ⟨hrest', hreserved'⟩ :=
    LogWorld.writeLine_frame { world with queue := rest } (line stamp record) fault
  have hqueue' := hrest.trans hrest'
  refine ⟨?_, ⟨inFile', others', torn', ?_, ?_, hsunk'⟩, hclean⟩
  · refine le_trans ?_ hroom
    rw [hqueue]
    exact Nat.add_le_add ((congrArg List.length hqueue').trans_le (Nat.le_succ _))
      (hreserved.trans hreserved').le
  · rw [hentries, List.map_append, hstamps]
    rfl
  · rw [hentries, List.map_append, ← hsent, hqueue, List.append_assoc]
    exact congrArg (((inFile ++ others).map Prod.snd ++ record :: ·)) hqueue'

theorem Kept.start (openable : Bool) :
    Kept file earlier [] [] (LogWorld.start file openable earlier) where
  room := Nat.zero_le _
  entries := by
    refine ⟨[], [], [], rfl, rfl, (List.append_nil _).symm, .inl rfl, fun _ => ⟨rfl, rfl⟩,
      fun isError => ?_⟩
    unfold offered
    cases isError <;> cases file.alsoConsole <;> rfl
  clean _ hrecord := by cases hrecord

theorem Kept.idle (hkept : Kept file earlier sent stamps world) {reserved : Nat}
    (hroom : world.queue.length + reserved ≤ channelSlots) :
    Kept file earlier (sent ++ []) (stamps ++ []) { world with reserved } := by
  rw [List.append_nil, List.append_nil]
  obtain ⟨-, ⟨inFile, others, torn, hstamps, hsent, hsunk⟩, hclean⟩ := hkept
  exact ⟨hroom, ⟨inFile, others, torn, hstamps, hsent, hsunk.written, hsunk.tears, hsunk.whole,
    hsunk.console⟩, hclean⟩

theorem Kept.step {event : LogEvent} (hkept : Kept file earlier sent stamps world)
    (hstep : world.step config file event = some next) :
    Kept file earlier (sent ++ (sentRecord event).toList) (stamps ++ (stampOf event).toList) next := by
  cases event with
  | reserve method =>
    rw [LogWorld.step] at hstep
    split at hstep
    · rename_i hguard
      obtain rfl := Option.some.inj hstep
      rw [Bool.and_eq_true, Bool.not_eq_true', LogWorld.full, decide_eq_false_iff_not] at hguard
      exact hkept.idle (by omega)
    · cases hstep
  | refuse method message =>
    rw [LogWorld.step] at hstep
    split at hstep
    · obtain rfl := Option.some.inj hstep
      exact hkept.idle hkept.room
    · cases hstep
  | giveBack =>
    rw [LogWorld.step] at hstep
    split at hstep
    · obtain rfl := Option.some.inj hstep
      exact hkept.idle ((Nat.add_le_add_left (Nat.sub_le _ _) _).trans hkept.room)
    · cases hstep
  | send method message =>
    rw [LogWorld.step] at hstep
    split at hstep
    · rename_i hguard
      obtain rfl := Option.some.inj hstep
      rw [Bool.and_eq_true, decide_eq_true_iff] at hguard
      rw [show (stampOf (.send method message)).toList = [] from rfl, List.append_nil]
      exact hkept.send method message hguard.2
    · cases hstep
  | receive stamp fault =>
    rw [LogWorld.step] at hstep
    split at hstep
    · cases hstep
    · rename_i record rest hqueue
      obtain rfl := Option.some.inj hstep
      rw [show (sentRecord (.receive stamp fault)).toList = [] from rfl, List.append_nil]
      exact hkept.receive hqueue stamp fault

theorem filterMap_snoc {α β : Type} (f : α → Option β) (items : List α) (item : α) :
    (items ++ [item]).filterMap f = items.filterMap f ++ (f item).toList := by
  rw [List.filterMap_append]
  cases hitem : f item <;> simp [hitem]

/-- Whatever the senders and the drain do, every record that was sent is queued, whole in the file or
offered to the console, in the order in which they were sent. Each has a line of its own in the file,
but that the first one goes on with a line at which the file broke off before. -/
theorem log_lines_kept {openable : Bool} {earlier : Bytes} {events : List LogEvent}
    (hrun : run (LogWorld.step config file) (LogWorld.start file openable earlier) events =
      some world) :
    world.queue.length + world.reserved ≤ channelSlots ∧
      ∃ inFile others torn, (inFile ++ others).map Prod.fst = events.filterMap stampOf ∧
        (inFile ++ others).map Prod.snd ++ world.queue = events.filterMap sentRecord ∧
        Sunk file earlier world inFile others torn ∧
        (∀ entry ∈ inFile ++ others, '\n' ∉ entry.text) ∧
        ∃ lines last first rest, earlier.splitOn 0x0A = lines ++ [last] ∧ last <:+ earlier ∧
          (earlier = [] ∨ earlier.getLast? = some 0x0A → last = []) ∧
          inFile.map (encode ∘ Entry.text) ++ torn.splitOn 0x0A = first :: rest ∧
          world.written.splitOn 0x0A = lines ++ (last ++ first) :: rest := by
  have hkept : Kept file earlier (events.filterMap sentRecord) (events.filterMap stampOf) world := by
    let Inv (events : List LogEvent) (world : LogWorld) : Prop :=
      Kept file earlier (events.filterMap sentRecord) (events.filterMap stampOf) world
    have hstart : Inv [] (LogWorld.start file openable earlier) := Kept.start openable
    have hkeeps : ∀ events world event next, Inv events world →
        world.step config file event = some next → Inv (events ++ [event]) next := by
      intro events world event next hkept hstep
      change Kept file earlier _ _ next
      rw [filterMap_snoc, filterMap_snoc]
      exact Kept.step hkept hstep
    exact run_history hkeeps hrun hstart
  obtain ⟨hroom, ⟨inFile, others, torn, hstamps, hsent, hsunk⟩, hclean⟩ := hkept
  have htexts : ∀ entry ∈ inFile ++ others, ∀ c ∈ entry.text, isControl c = false := by
    intro entry hentry
    refine lineText_clean entry.1 (hclean entry.2 ?_)
    rw [← hsent]
    exact List.mem_append_left _ (List.mem_map_of_mem hentry)
  refine ⟨hroom, inFile, others, torn, hstamps, hsent, hsunk, fun entry hentry hmem => ?_, ?_⟩
  · exact absurd (htexts entry hentry _ hmem) (by decide)
  · have hlines : ∀ text ∈ inFile.map (encode ∘ Entry.text), 0x0A ∉ text := by
      intro text htext
      obtain ⟨entry, hentry, rfl⟩ := List.mem_map.mp htext
      exact encode_clean (htexts entry (List.mem_append_left _ hentry))
    have hsplit := splitOn_lines hlines torn
    rw [List.map_map] at hsplit
    have hbytes : (· ++ [0x0A]) ∘ (encode ∘ Entry.text) = Entry.bytes :=
      funext fun entry => (encode_line entry.1 entry.2).symm
    rw [hbytes] at hsplit
    obtain ⟨lines, last, hearlier, hsuffix, hwhole, hreads⟩ := splitOn_append earlier
    obtain ⟨first, rest, hfirst⟩ := List.exists_cons_of_ne_nil
      (hsplit ▸ List.splitOn_ne_nil (0x0A : UInt8) ((inFile.map Entry.bytes).flatten ++ torn))
    refine ⟨lines, last, first, rest, hearlier, hsuffix, hwhole, hfirst, ?_⟩
    rw [hsunk.written]
    exact hreads _ first rest (hsplit.trans hfirst)

theorem noon_clean : ∀ c ∈ "12:00".toList, isControl c = false := clean_of_all (by decide)

def noon : Stamp := ⟨"12:00".toList, noon_clean⟩

def verbose : LogConfig := ⟨true, true, true, true, true, true, true, true, true, true⟩

def tornEvents : List LogEvent :=
  [.reserve .attempt, .send .attempt ("a".toList ++ ['\n'] ++ "12:00: b".toList),
    .reserve .proxyFailure, .receive noon none, .send .proxyFailure "down".toList,
    .receive noon (some 3)]

def tornFile : Bytes := lit "11:00: up" ++ [0x0A] ++ lit "11:0"

theorem log_lines_kept_torn :
    ∃ world, run (LogWorld.step verbose ⟨true, false⟩) (LogWorld.start ⟨true, false⟩ true tornFile)
        tornEvents = some world ∧
      world.err = ["12:00: down".toList ++ ['\n']] ∧
      ∃ inFile others : List Entry, ∃ torn : Bytes,
        Sunk ⟨true, false⟩ tornFile world inFile others torn ∧
        ∃ first rest, inFile.map (encode ∘ Entry.text) ++ torn.splitOn 0x0A = first :: rest ∧
          world.written.splitOn 0x0A = [lit "11:00: up"] ++ (lit "11:0" ++ first) :: rest := by
  obtain ⟨world, hrun, herr⟩ : ∃ world, run (LogWorld.step verbose ⟨true, false⟩)
      (LogWorld.start ⟨true, false⟩ true tornFile) tornEvents = some world ∧
      world.err = ["12:00: down".toList ++ ['\n']] := ⟨_, rfl, rfl⟩
  obtain ⟨-, inFile, others, torn, -, -, hsunk, -, lines, last, first, rest, hearlier, -, -, hfirst,
    hreads⟩ := log_lines_kept hrun
  have htorn : tornFile.splitOn 0x0A = [lit "11:00: up"] ++ [lit "11:0"] := by decide
  obtain ⟨hlines, hlast⟩ := List.append_inj' (hearlier.symm.trans htorn) rfl
  cases hlast
  rw [hlines] at hreads
  exact ⟨world, hrun, herr, inFile, others, torn, hsunk, first, rest, hfirst, hreads⟩

end Resocks5.Logger
