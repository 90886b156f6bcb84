import Resocks5.Foundation.Bytes
import Resocks5.Foundation.Run

namespace Resocks5.Foundation

/-! Programs on a byte stream. -/

inductive Fault where
  | io
  | deadline
  deriving DecidableEq, Repr

/-- `write` is `write_all` and the `flush` after it, `exact` is `read_exact`. A `read` yields
nothing at the end of the stream. Transport failures end a program as `broken`. -/
inductive Prog (κ ε α : Type) where
  | ok (value : α)
  | fail (error : ε)
  | broken (fault : Fault)
  | write (bytes : Bytes) (next : Prog κ ε α)
  | exact (n : Nat) (next : Bytes → Prog κ ε α)
  | read (max : Nat) (next : Bytes → Prog κ ε α)
  | ask (question : κ) (next : Bool → Prog κ ε α)

/-- What passes between a program and its surroundings. -/
inductive Event (κ : Type) where
  | put (bytes : Bytes)
  | take (bytes : Bytes)
  | closed
  | asked (question : κ) (answer : Bool)
  | cut (fault : Fault)

namespace Prog

variable {κ ε α β : Type}

def bind : Prog κ ε α → (α → Prog κ ε β) → Prog κ ε β
  | ok value, f => f value
  | fail error, _ => fail error
  | broken fault, _ => broken fault
  | write bytes next, f => write bytes (next.bind f)
  | exact n next, f => exact n fun bytes => (next bytes).bind f
  | read max next, f => read max fun bytes => (next bytes).bind f
  | ask question next, f => ask question fun answer => (next answer).bind f

instance : Monad (Prog κ ε) where
  pure := ok
  bind := bind

section

variable (f : α → Prog κ ε β)

@[simp] theorem pure_eq (value : α) : (pure value : Prog κ ε α) = ok value := rfl

@[simp] theorem ok_bind (value : α) : (ok value : Prog κ ε α) >>= f = f value := rfl

@[simp] theorem fail_bind (error : ε) : (fail error : Prog κ ε α) >>= f = fail error := rfl

@[simp] theorem broken_bind (fault : Fault) :
    (broken fault : Prog κ ε α) >>= f = broken fault := rfl

@[simp] theorem write_bind (bytes : Bytes) (next : Prog κ ε α) :
    write bytes next >>= f = write bytes (next >>= f) := rfl

@[simp] theorem exact_bind (n : Nat) (next : Bytes → Prog κ ε α) :
    exact n next >>= f = exact n fun bytes => next bytes >>= f := rfl

@[simp] theorem read_bind (max : Nat) (next : Bytes → Prog κ ε α) :
    read max next >>= f = read max fun bytes => next bytes >>= f := rfl

@[simp] theorem ask_bind (question : κ) (next : Bool → Prog κ ε α) :
    ask question next >>= f = ask question fun answer => next answer >>= f := rfl

end

theorem bind_ok (prog : Prog κ ε α) : prog >>= ok = prog := by
  induction prog with
  | ok value => rfl
  | fail error => rfl
  | broken fault => rfl
  | write bytes next ih => exact congrArg (write bytes) ih
  | exact n next ih => exact congrArg (exact n) (funext ih)
  | read max next ih => exact congrArg (read max) (funext ih)
  | ask question next ih => exact congrArg (ask question) (funext ih)

theorem bind_bind {γ : Type} (prog : Prog κ ε α) (f : α → Prog κ ε β) (g : β → Prog κ ε γ) :
    prog >>= f >>= g = prog >>= fun value => f value >>= g := by
  induction prog with
  | ok value => rfl
  | fail error => rfl
  | broken fault => rfl
  | write bytes next ih => exact congrArg (write bytes) ih
  | exact n next ih => exact congrArg (exact n) (funext ih)
  | read max next ih => exact congrArg (read max) (funext ih)
  | ask question next ih => exact congrArg (ask question) (funext ih)

instance : LawfulMonad (Prog κ ε) :=
  LawfulMonad.mk' (Prog κ ε) bind_ok (fun _ _ => rfl) bind_bind

/-! The single operations. -/

def writeAll (bytes : Bytes) : Prog κ ε Unit := write bytes (ok ())

def readExact (n : Nat) : Prog κ ε Bytes := exact n ok

def readSome (max : Nat) : Prog κ ε Bytes := read max ok

def readU8 : Prog κ ε UInt8 := exact 1 fun bytes => ok (bytes.headD 0)

def readU16 : Prog κ ε UInt16 :=
  exact 2 fun bytes => ok ((bytes.getD 0 0).toNat * 256 + (bytes.getD 1 0).toNat).toUInt16

def call (question : κ) : Prog κ ε Bool := ask question ok

def Live : Prog κ ε α → Prop
  | ok _ | fail _ | broken _ => False
  | _ => True

/-- One step. Bytes go out and come in by any pieces, and a live program may be cut off. -/
inductive Step : Prog κ ε α → Event κ → Prog κ ε α → Prop
  | put {bytes sent rest : Bytes} {next : Prog κ ε α} (hbytes : bytes = sent ++ rest)
      (hsent : sent = [] → bytes = []) :
      Step (write bytes next) (.put sent) (if rest = [] then next else write rest next)
  | fill {n : Nat} {chunk : Bytes} {next : Bytes → Prog κ ε α} (hle : chunk.length ≤ n)
      (hchunk : chunk = [] → n = 0) :
      Step (exact n next) (.take chunk)
        (if chunk.length = n then next chunk
        else exact (n - chunk.length) fun more => next (chunk ++ more))
  | read {max : Nat} {chunk : Bytes} {next : Bytes → Prog κ ε α} (hle : chunk.length ≤ max)
      (hchunk : chunk ≠ []) : Step (read max next) (.take chunk) (next chunk)
  | closed {max : Nat} {next : Bytes → Prog κ ε α} : Step (read max next) .closed (next [])
  | ask {question : κ} {next : Bool → Prog κ ε α} (answer : Bool) :
      Step (ask question next) (.asked question answer) (next answer)
  | cut {prog : Prog κ ε α} (hlive : prog.Live) (fault : Fault) :
      Step prog (.cut fault) (broken fault)

theorem Step.live {prog next : Prog κ ε α} {event : Event κ} (hstep : prog.Step event next) :
    prog.Live := by
  cases hstep with
  | cut hlive _ => exact hlive
  | _ => trivial

theorem Step.putAll (bytes : Bytes) (next : Prog κ ε α) :
    Step (write bytes next) (.put bytes) next := by
  have hstep : Step (write bytes next) (.put bytes) _ := .put (List.append_nil bytes).symm id
  rwa [if_pos rfl] at hstep

inductive Runs : Prog κ ε α → List (Event κ) → Prog κ ε α → Prop
  | nil (prog : Prog κ ε α) : Runs prog [] prog
  | cons {first middle last : Prog κ ε α} {event : Event κ} {events : List (Event κ)}
      (hstep : Step first event middle) (hrest : Runs middle events last) :
      Runs first (event :: events) last

section

variable {first : Prog κ ε α} {f : α → Prog κ ε β} {last : Prog κ ε β}

theorem Step.of_bind {event : Event κ} (hstep : (first >>= f).Step event last)
    (hlive : first.Live) : ∃ next, first.Step event next ∧ last = next >>= f := by
  cases first with
  | ok _ => exact hlive.elim
  | fail _ => exact hlive.elim
  | broken _ => exact hlive.elim
  | write bytes next =>
      cases hstep with
      | put hbytes hsent =>
          refine ⟨_, .put hbytes hsent, ?_⟩
          rw [apply_ite (· >>= f)]
          rfl
      | cut _ fault => exact ⟨_, .cut hlive fault, rfl⟩
  | exact n next =>
      cases hstep with
      | fill hle hchunk =>
          refine ⟨_, .fill hle hchunk, ?_⟩
          rw [apply_ite (· >>= f)]
          rfl
      | cut _ fault => exact ⟨_, .cut hlive fault, rfl⟩
  | read max next =>
      cases hstep with
      | read hle hchunk => exact ⟨_, .read hle hchunk, rfl⟩
      | closed => exact ⟨_, .closed, rfl⟩
      | cut _ fault => exact ⟨_, .cut hlive fault, rfl⟩
  | ask question next =>
      cases hstep with
      | ask answer => exact ⟨_, .ask answer, rfl⟩
      | cut _ fault => exact ⟨_, .cut hlive fault, rfl⟩

theorem Runs.of_bind {events : List (Event κ)} (hruns : (first >>= f).Runs events last) :
    (∃ inside, first.Runs events inside ∧ last = inside >>= f) ∨
      ∃ before value after, events = before ++ after ∧ first.Runs before (ok value) ∧
        (f value).Runs after last := by
  induction events generalizing first with
  | nil =>
      cases hruns
      exact .inl ⟨first, .nil first, rfl⟩
  | cons event events ih =>
      cases hruns with
      | cons hstep hrest =>
          by_cases hlive : first.Live
          · obtain ⟨next, hnext, rfl⟩ := hstep.of_bind hlive
            obtain ⟨inside, hinside, rfl⟩ | ⟨before, value, after, rfl, hbefore, hafter⟩ := ih hrest
            · exact .inl ⟨inside, .cons hnext hinside, rfl⟩
            · exact .inr ⟨event :: before, value, after, rfl, .cons hnext hbefore, hafter⟩
          · cases first with
            | ok value => exact .inr ⟨[], value, _, rfl, .nil _, .cons hstep hrest⟩
            | fail error => exact absurd hstep.live id
            | broken fault => exact absurd hstep.live id
            | _ => exact absurd trivial hlive

end

end Prog

structure Log (κ : Type) where
  taken : Bytes
  written : Bytes
  asked : List (κ × Bool)

namespace Log

variable {κ : Type}

def empty : Log κ := ⟨[], [], []⟩

def put (log : Log κ) (bytes : Bytes) : Log κ := { log with written := log.written ++ bytes }

def take (log : Log κ) (bytes : Bytes) : Log κ := { log with taken := log.taken ++ bytes }

def ask (log : Log κ) (question : κ) (answer : Bool) : Log κ :=
  { log with asked := log.asked ++ [(question, answer)] }

def after (log : Log κ) : Event κ → Log κ
  | .put bytes => log.put bytes
  | .take bytes => log.take bytes
  | .asked question answer => log.ask question answer
  | .closed | .cut _ => log

def of (events : List (Event κ)) : Log κ := events.foldl after empty

section

variable (log : Log κ) (bytes : Bytes)

@[simp] theorem put_taken : (log.put bytes).taken = log.taken := rfl
@[simp] theorem put_written : (log.put bytes).written = log.written ++ bytes := rfl
@[simp] theorem put_asked : (log.put bytes).asked = log.asked := rfl
@[simp] theorem take_taken : (log.take bytes).taken = log.taken ++ bytes := rfl
@[simp] theorem take_written : (log.take bytes).written = log.written := rfl
@[simp] theorem take_asked : (log.take bytes).asked = log.asked := rfl

@[simp] theorem ask_taken (question : κ) (answer : Bool) :
    (log.ask question answer).taken = log.taken := rfl

@[simp] theorem ask_written (question : κ) (answer : Bool) :
    (log.ask question answer).written = log.written := rfl

@[simp] theorem ask_asked (question : κ) (answer : Bool) :
    (log.ask question answer).asked = log.asked ++ [(question, answer)] := rfl

@[simp] theorem put_nil : log.put [] = log := by
  rw [put, List.append_nil]

@[simp] theorem take_nil : log.take [] = log := by
  rw [take, List.append_nil]

@[simp] theorem put_put (more : Bytes) : (log.put bytes).put more = log.put (bytes ++ more) := by
  rw [put, put, put, List.append_assoc]

@[simp] theorem take_take (more : Bytes) :
    (log.take bytes).take more = log.take (bytes ++ more) := by
  rw [take, take, take, List.append_assoc]

end

end Log

namespace Prog

variable {κ ε α β : Type}

/-- Over every run: `inv` holds all along, `post` of the value that it ends with. -/
def Safe (inv : Log κ → Prop) (post : α → Log κ → Prop) : Prog κ ε α → Log κ → Prop
  | ok value, log => inv log ∧ post value log
  | fail _, log => inv log
  | broken _, log => inv log
  | write bytes next, log =>
    (∀ sent, sent <+: bytes → inv (log.put sent)) ∧ next.Safe inv post (log.put bytes)
  | exact n next, log =>
    (∀ chunk : Bytes, chunk.length ≤ n → inv (log.take chunk)) ∧
      ∀ chunk, chunk.length = n → (next chunk).Safe inv post (log.take chunk)
  | read max next, log =>
    inv log ∧ ∀ chunk, chunk.length ≤ max → (next chunk).Safe inv post (log.take chunk)
  | ask question next, log =>
    inv log ∧ ∀ answer, (next answer).Safe inv post (log.ask question answer)

section

variable {inv : Log κ → Prop} {post : α → Log κ → Prop} {prog : Prog κ ε α} {log : Log κ}

theorem Safe.now (hsafe : prog.Safe inv post log) : inv log := by
  cases prog with
  | ok value => exact hsafe.1
  | fail error => exact hsafe
  | broken fault => exact hsafe
  | write bytes next => simpa using hsafe.1 [] List.nil_prefix
  | exact n next => simpa using hsafe.1 [] (Nat.zero_le n)
  | read max next => exact hsafe.1
  | ask question next => exact hsafe.1

theorem Safe.bind {f : α → Prog κ ε β} {goal : β → Log κ → Prop}
    (hsafe : prog.Safe inv (fun value log => (f value).Safe inv goal log) log) :
    (prog >>= f).Safe inv goal log := by
  induction prog generalizing log with
  | ok value => exact hsafe.2
  | fail error => exact hsafe
  | broken fault => exact hsafe
  | write bytes next ih => exact ⟨hsafe.1, ih hsafe.2⟩
  | exact n next ih => exact ⟨hsafe.1, fun chunk hchunk => ih chunk (hsafe.2 chunk hchunk)⟩
  | read max next ih => exact ⟨hsafe.1, fun chunk hchunk => ih chunk (hsafe.2 chunk hchunk)⟩
  | ask question next ih => exact ⟨hsafe.1, fun answer => ih answer (hsafe.2 answer)⟩

theorem Safe.mono {weaker : α → Log κ → Prop} (hsafe : prog.Safe inv post log)
    (hpost : ∀ value log, inv log → post value log → weaker value log) :
    prog.Safe inv weaker log := by
  induction prog generalizing log with
  | ok value => exact ⟨hsafe.1, hpost value log hsafe.1 hsafe.2⟩
  | fail error => exact hsafe
  | broken fault => exact hsafe
  | write bytes next ih => exact ⟨hsafe.1, ih hsafe.2⟩
  | exact n next ih => exact ⟨hsafe.1, fun chunk hchunk => ih chunk (hsafe.2 chunk hchunk)⟩
  | read max next ih => exact ⟨hsafe.1, fun chunk hchunk => ih chunk (hsafe.2 chunk hchunk)⟩
  | ask question next ih => exact ⟨hsafe.1, fun answer => ih answer (hsafe.2 answer)⟩

theorem Safe.weaken {weaker : Log κ → Prop} (hsafe : prog.Safe inv post log)
    (hinv : ∀ log, inv log → weaker log) : prog.Safe weaker post log := by
  induction prog generalizing log with
  | ok value => exact ⟨hinv log hsafe.1, hsafe.2⟩
  | fail error => exact hinv log hsafe
  | broken fault => exact hinv log hsafe
  | write bytes next ih => exact ⟨fun sent hsent => hinv _ (hsafe.1 sent hsent), ih hsafe.2⟩
  | exact n next ih =>
      exact ⟨fun chunk hchunk => hinv _ (hsafe.1 chunk hchunk),
        fun chunk hchunk => ih chunk (hsafe.2 chunk hchunk)⟩
  | read max next ih =>
      exact ⟨hinv log hsafe.1, fun chunk hchunk => ih chunk (hsafe.2 chunk hchunk)⟩
  | ask question next ih => exact ⟨hinv log hsafe.1, fun answer => ih answer (hsafe.2 answer)⟩

theorem Safe.unbound (prog : Prog κ ε α) (log : Log κ) :
    prog.Safe (fun _ => True) (fun _ _ => True) log := by
  induction prog generalizing log with
  | ok value => exact ⟨trivial, trivial⟩
  | fail error => trivial
  | broken fault => trivial
  | write bytes next ih => exact ⟨fun _ _ => trivial, ih _⟩
  | exact n next ih => exact ⟨fun _ _ => trivial, fun chunk _ => ih chunk _⟩
  | read max next ih => exact ⟨trivial, fun chunk _ => ih chunk _⟩
  | ask question next ih => exact ⟨trivial, fun answer => ih answer _⟩

theorem Safe.step {event : Event κ} {next : Prog κ ε α} (hsafe : prog.Safe inv post log)
    (hstep : prog.Step event next) : next.Safe inv post (log.after event) := by
  cases hstep with
  | @put bytes sent rest next hbytes _ =>
      subst hbytes
      obtain ⟨halong, hnext⟩ := hsafe
      split
      · rename_i hrest
        rw [hrest, List.append_nil] at hnext
        exact hnext
      · refine ⟨fun more hmore => ?_, ?_⟩
        · rw [Log.after, Log.put_put]
          exact halong _ ((List.prefix_append_right_inj sent).mpr hmore)
        · rw [Log.after, Log.put_put]
          exact hnext
  | @fill n chunk next hle _ =>
      obtain ⟨halong, hnext⟩ := hsafe
      split
      · rename_i hfull
        exact hnext chunk hfull
      · refine ⟨fun more hmore => ?_, fun more hmore => ?_⟩
        · rw [Log.after, Log.take_take]
          exact halong _ (by rw [List.length_append]; omega)
        · rw [Log.after, Log.take_take]
          exact hnext _ (by rw [List.length_append]; omega)
  | read hle _ => exact hsafe.2 _ hle
  | closed =>
      have hnext := hsafe.2 [] (Nat.zero_le _)
      rwa [Log.take_nil] at hnext
  | ask answer => exact hsafe.2 answer
  | cut _ fault => exact hsafe.now

theorem Safe.runs {events : List (Event κ)} {last : Prog κ ε α}
    (hsafe : prog.Safe inv post log) (hruns : prog.Runs events last) :
    last.Safe inv post (events.foldl Log.after log) := by
  induction hruns generalizing log with
  | nil prog => exact hsafe
  | cons hstep _ ih => exact ih (hsafe.step hstep)

end

/-! How programs fail. -/

def Never (bad : ε → Prop) : Prog κ ε α → Prop
  | ok _ | broken _ => True
  | fail error => ¬ bad error
  | write _ next => next.Never bad
  | exact n next => ∀ chunk, chunk.length = n → (next chunk).Never bad
  | read _ next => ∀ chunk, (next chunk).Never bad
  | ask _ next => ∀ answer, (next answer).Never bad

section

variable {bad : ε → Prop} {prog : Prog κ ε α}

theorem Never.bind {f : α → Prog κ ε β} (hnever : prog.Never bad)
    (hnext : ∀ value, (f value).Never bad) : (prog >>= f).Never bad := by
  induction prog with
  | ok value => exact hnext value
  | fail error => exact hnever
  | broken fault => trivial
  | write bytes next ih => exact ih hnever
  | exact n next ih => exact fun chunk hchunk => ih chunk (hnever chunk hchunk)
  | read max next ih => exact fun chunk => ih chunk (hnever chunk)
  | ask question next ih => exact fun answer => ih answer (hnever answer)

theorem Never.step {event : Event κ} {next : Prog κ ε α} (hnever : prog.Never bad)
    (hstep : prog.Step event next) : next.Never bad := by
  cases hstep with
  | put _ _ =>
      split
      · exact hnever
      · exact hnever
  | fill hle _ =>
      split
      · rename_i hfull
        exact hnever _ hfull
      · intro more hmore
        exact hnever _ (by rw [List.length_append]; omega)
  | read _ _ => exact hnever _
  | closed => exact hnever []
  | ask answer => exact hnever answer
  | cut _ _ => trivial

theorem Never.runs {events : List (Event κ)} {last : Prog κ ε α} (hnever : prog.Never bad)
    (hruns : prog.Runs events last) : last.Never bad := by
  induction hruns with
  | nil prog => exact hnever
  | cons hstep _ ih => exact ih (hnever.step hstep)

end

end Prog

end Resocks5.Foundation
