import Resocks5.Foundation.Prog

namespace Resocks5.Foundation

open Prog

variable {κ ε α κ' ε' β : Type}

/-! A program that is fed a byte stream. -/

/-- What is left of the stream comes in any pieces, then its end; `answer` answers. -/
inductive Feed (answer : κ → Bool) : Prog κ ε α × Bytes → Prog κ ε α × Bytes → Prop
  | put {prog next : Prog κ ε α} {sent input : Bytes} (hstep : prog.Step (.put sent) next) :
      Feed answer (prog, input) (next, input)
  | take {prog next : Prog κ ε α} {chunk input : Bytes} (hstep : prog.Step (.take chunk) next) :
      Feed answer (prog, chunk ++ input) (next, input)
  | closed {prog next : Prog κ ε α} (hstep : prog.Step .closed next) :
      Feed answer (prog, []) (next, [])
  | ask {prog next : Prog κ ε α} {question : κ} {input : Bytes}
      (hstep : prog.Step (.asked question (answer question)) next) :
      Feed answer (prog, input) (next, input)

theorem Feed.live {answer : κ → Bool} {state next : Prog κ ε α × Bytes}
    (hfeed : Feed answer state next) : state.1.Live := by
  cases hfeed with
  | put hstep => exact hstep.live
  | take hstep => exact hstep.live
  | closed hstep => exact hstep.live
  | ask hstep => exact hstep.live

section

variable {answer : κ → Bool} {goal : Prog κ ε α × Bytes → Prop}

theorem Feed.read {max : Nat} {next : Bytes → Prog κ ε α} {input : Bytes} (hmax : 0 < max)
    (hinput : input ≠ [])
    (hnext : ∀ chunk rest, input = chunk ++ rest → chunk ≠ [] → chunk.length ≤ max →
      Inevitably (Feed answer) goal (next chunk, rest)) :
    Inevitably (Feed answer) goal (.read max next, input) := by
  refine .later ?_ fun after hstep => ?_
  · cases input with
    | nil => exact absurd rfl hinput
    | cons b rest =>
        have hfeed : Feed answer (.read max next, [b] ++ rest) (next [b], rest) :=
          .take (.read hmax (List.cons_ne_nil b []))
        exact ⟨_, hfeed⟩
  · cases hstep with
    | put hstep => cases hstep
    | take hstep =>
        cases hstep with
        | read hle hchunk => exact hnext _ _ rfl hchunk hle
    | closed _ => exact absurd rfl hinput
    | ask hstep => cases hstep

theorem Feed.call {question : κ} {next : Bool → Prog κ ε α} {input : Bytes}
    (hnext : Inevitably (Feed answer) goal (next (answer question), input)) :
    Inevitably (Feed answer) goal (.ask question next, input) := by
  refine .later ⟨_, .ask (.ask (answer question))⟩ fun after hstep => ?_
  cases hstep with
  | put hstep => cases hstep
  | take hstep => cases hstep
  | closed hstep => cases hstep
  | ask hstep =>
      cases hstep
      exact hnext

theorem Feed.ended {max : Nat} {next : Bytes → Prog κ ε α}
    (hnext : Inevitably (Feed answer) goal (next [], [])) :
    Inevitably (Feed answer) goal (.read max next, []) := by
  refine .later ⟨_, .closed .closed⟩ fun after hstep => ?_
  generalize hinput : ([] : Bytes) = input at hstep
  cases hstep with
  | put hstep => cases hstep
  | take hstep =>
      cases hstep with
      | read _ hchunk => exact absurd (List.append_eq_nil_iff.mp hinput.symm).1 hchunk
  | closed hstep =>
      cases hstep
      exact hnext
  | ask hstep => cases hstep

theorem Feed.write {bytes : Bytes} {next : Prog κ ε α} {input : Bytes}
    (hnext : Inevitably (Feed answer) goal (next, input)) :
    Inevitably (Feed answer) goal (.write bytes next, input) := by
  induction hlength : bytes.length using Nat.strongRecOn generalizing bytes with
  | ind length ih =>
      refine .later ⟨_, .put (.putAll bytes next)⟩ fun after hstep => ?_
      cases hstep with
      | @put _ _ sent _ hstep =>
          cases hstep with
          | @put _ _ rest _ hbytes hsent =>
              split
              · exact hnext
              · rename_i hrest
                have hsome : sent ≠ [] := fun hnil => by
                  rw [hsent hnil, hnil] at hbytes
                  exact hrest hbytes.symm
                have hpos := List.length_pos_iff.mpr hsome
                refine ih rest.length ?_ rfl
                rw [← hlength, hbytes, List.length_append]
                omega
      | take hstep => cases hstep
      | closed hstep => cases hstep
      | ask hstep => cases hstep

def Prog.Offline : Prog κ ε α → Prop
  | .ok _ | .fail _ => True
  | .write _ next => next.Offline
  | .ask _ next => ∀ answer, (next answer).Offline
  | _ => False

theorem Prog.Offline.bind {prog : Prog κ ε α} {f : α → Prog κ ε β} (hoffline : prog.Offline)
    (hnext : ∀ value, (f value).Offline) : (prog >>= f).Offline := by
  induction prog with
  | ok value => exact hnext value
  | fail error => trivial
  | broken fault => exact hoffline
  | write bytes next ih => exact ih hoffline
  | exact n next _ => exact hoffline
  | read max next _ => exact hoffline
  | ask question next ih => exact fun answer => ih answer (hoffline answer)

theorem Feed.offline (answer : κ → Bool) {prog : Prog κ ε α} (hoffline : prog.Offline) :
    ∃ result : Except ε α, ∀ {β : Type} (f : α → Prog κ ε β) (goal : Prog κ ε β × Bytes → Prop)
      (input : Bytes), (∀ error, result = .error error → goal (.fail error, input)) →
        (∀ value, result = .ok value → Inevitably (Feed answer) goal (f value, input)) →
        Inevitably (Feed answer) goal (prog >>= f, input) := by
  induction prog with
  | ok value => exact ⟨.ok value, fun f goal input _ hvalue => hvalue value rfl⟩
  | fail error => exact ⟨.error error, fun f goal input herror _ => .now (herror error rfl)⟩
  | broken fault => cases hoffline
  | write bytes next ih =>
      obtain ⟨result, hresult⟩ := ih hoffline
      exact ⟨result, fun f goal input herror hvalue => Feed.write (hresult f goal input herror hvalue)⟩
  | exact n next _ => cases hoffline
  | read max next _ => cases hoffline
  | ask question next ih =>
      obtain ⟨result, hresult⟩ := ih (answer question) (hoffline (answer question))
      exact ⟨result, fun f goal input herror hvalue => Feed.call (hresult f goal input herror hvalue)⟩

end

/-! Two programs on the two ends of a connection. -/

structure Duplex (κ ε α κ' ε' β : Type) where
  left : Prog κ ε α
  toRight : Bytes
  toLeft : Bytes
  right : Prog κ' ε' β

/-- What an event of one end does to the bytes under way: `out` from it, `input` to it. -/
def Carries (answer : κ → Bool) : Event κ → Bytes → Bytes → Bytes → Bytes → Prop
  | .put sent, out, input, out', input' => out' = out ++ sent ∧ input' = input
  | .take chunk, out, input, out', input' => out' = out ∧ input = chunk ++ input'
  | .asked question reply, out, input, out', input' =>
    reply = answer question ∧ out' = out ∧ input' = input
  | .closed, _, _, _, _ => False
  | .cut _, _, _, _, _ => False

theorem Carries.commutes {answer : κ → Bool} {answer' : κ' → Bool} {event : Event κ}
    {event' : Event κ'} {out input out₁ input₁ out₂ input₂ : Bytes}
    (hcarries : Carries answer event out input out₁ input₁)
    (hcarries' : Carries answer' event' input out input₂ out₂) :
    ∃ out₃ input₃, Carries answer event out₂ input₂ out₃ input₃ ∧
      Carries answer' event' input₁ out₁ input₃ out₃ := by
  cases event with
  | closed => cases hcarries
  | cut fault => cases hcarries
  | put sent =>
      obtain ⟨rfl, rfl⟩ := hcarries
      cases event' with
      | closed => cases hcarries'
      | cut fault => cases hcarries'
      | put sent' =>
          obtain ⟨rfl, rfl⟩ := hcarries'
          exact ⟨_, _, ⟨rfl, rfl⟩, ⟨rfl, rfl⟩⟩
      | take chunk' =>
          obtain ⟨rfl, rfl⟩ := hcarries'
          exact ⟨_, _, ⟨rfl, rfl⟩, ⟨rfl, List.append_assoc _ _ _⟩⟩
      | asked question' reply' =>
          obtain ⟨hreply, rfl, rfl⟩ := hcarries'
          exact ⟨_, _, ⟨rfl, rfl⟩, ⟨hreply, rfl, rfl⟩⟩
  | take chunk =>
      obtain ⟨rfl, rfl⟩ := hcarries
      cases event' with
      | closed => cases hcarries'
      | cut fault => cases hcarries'
      | put sent' =>
          obtain ⟨rfl, rfl⟩ := hcarries'
          exact ⟨_, _, ⟨rfl, List.append_assoc _ _ _⟩, ⟨rfl, rfl⟩⟩
      | take chunk' =>
          obtain ⟨rfl, rfl⟩ := hcarries'
          exact ⟨_, _, ⟨rfl, rfl⟩, ⟨rfl, rfl⟩⟩
      | asked question' reply' =>
          obtain ⟨hreply, rfl, rfl⟩ := hcarries'
          exact ⟨_, _, ⟨rfl, rfl⟩, ⟨hreply, rfl, rfl⟩⟩
  | asked question reply =>
      obtain ⟨hreply, rfl, rfl⟩ := hcarries
      exact ⟨_, _, ⟨hreply, rfl, rfl⟩, hcarries'⟩

namespace Duplex

def swap (duplex : Duplex κ ε α κ' ε' β) : Duplex κ' ε' β κ ε α :=
  ⟨duplex.right, duplex.toLeft, duplex.toRight, duplex.left⟩

def Half (answer : κ → Bool) (before after : Duplex κ ε α κ' ε' β) : Prop :=
  ∃ event, before.left.Step event after.left ∧
    Carries answer event before.toRight before.toLeft after.toRight after.toLeft ∧
    after.right = before.right

def Step (answer : κ → Bool) (answer' : κ' → Bool) (before after : Duplex κ ε α κ' ε' β) :
    Prop :=
  Half answer before after ∨ Half answer' before.swap after.swap

end Duplex

/-- An operation taken in one go, with its work: bytes still to pass, and one. -/
inductive Prog.Turn : Prog κ ε α → Event κ → Nat → Prog κ ε α → Prop
  | put (bytes : Bytes) (next : Prog κ ε α) :
      Turn (.write bytes next) (.put bytes) (bytes.length + 1) next
  | fill (chunk : Bytes) (next : Bytes → Prog κ ε α) :
      Turn (.exact chunk.length next) (.take chunk) (chunk.length + 1) (next chunk)
  | byte (b : UInt8) (next : Bytes → Prog κ ε α) : Turn (.read 1 next) (.take [b]) 1 (next [b])
  | ask (question : κ) (answer : Bool) (next : Bool → Prog κ ε α) :
      Turn (.ask question next) (.asked question answer) 1 (next answer)

theorem Prog.Turn.step {prog next : Prog κ ε α} {event : Event κ} {work : Nat}
    (hturn : prog.Turn event work next) : prog.Step event next := by
  cases hturn with
  | put bytes next => exact Step.putAll bytes next
  | fill chunk next =>
      have hstep : Step (.exact chunk.length next) (.take chunk) _ :=
        .fill (Nat.le_refl chunk.length) List.length_eq_zero_iff.mpr
      rwa [if_pos rfl] at hstep
  | byte b next => exact .read (Nat.le_refl 1) (List.cons_ne_nil b [])
  | ask question answer next => exact .ask answer

theorem Prog.Turn.pos {prog next : Prog κ ε α} {event : Event κ} {work : Nat}
    (hturn : prog.Turn event work next) : 0 < work := by
  cases hturn with
  | put bytes next => exact Nat.succ_pos _
  | fill chunk next => exact Nat.succ_pos _
  | byte b next => exact Nat.one_pos
  | ask question answer next => exact Nat.one_pos

namespace Duplex

def Turn (answer : κ → Bool) (work : Nat) (before after : Duplex κ ε α κ' ε' β) : Prop :=
  ∃ event, before.left.Turn event work after.left ∧
    Carries answer event before.toRight before.toLeft after.toRight after.toLeft ∧
    after.right = before.right

variable {answer : κ → Bool} {answer' : κ' → Bool}
  {before after other : Duplex κ ε α κ' ε' β} {work : Nat}

theorem Turn.half (hturn : Turn answer work before after) : Half answer before after := by
  obtain ⟨event, hmove, hcarries, hright⟩ := hturn
  exact ⟨event, hmove.step, hcarries, hright⟩

/-- A step of an end is the turn it is about to take, or a part of it. -/
theorem Turn.absorbs (hturn : Turn answer work before after)
    (hhalf : Half answer before other) :
    other = after ∨ ∃ less < work, Turn answer less other after := by
  obtain ⟨left, toRight, toLeft, right⟩ := before
  obtain ⟨left₁, toRight₁, toLeft₁, right₁⟩ := after
  obtain ⟨left₂, toRight₂, toLeft₂, right₂⟩ := other
  obtain ⟨event, hmove, hcarries, hright⟩ := hturn
  obtain ⟨event', hstep, hcarries', hright'⟩ := hhalf
  dsimp only at *
  subst hright hright'
  cases hmove with
  | put bytes next =>
      obtain ⟨rfl, rfl⟩ := hcarries
      cases hstep with
      | @put _ sent rest _ hbytes hsent =>
          obtain ⟨rfl, rfl⟩ := hcarries'
          subst hbytes
          split
          · rename_i hrest
            exact .inl (by rw [hrest, List.append_nil])
          · rename_i hrest
            have hsome : sent ≠ [] := fun hnil => hrest (List.append_eq_nil_iff.mp (hsent hnil)).2
            have hpos := List.length_pos_iff.mpr hsome
            refine .inr ⟨rest.length + 1, ?_, .put rest, .put rest _, ⟨?_, rfl⟩, rfl⟩
            · rw [List.length_append]
              omega
            · exact (List.append_assoc toRight sent rest).symm
      | cut _ _ => cases hcarries'
  | fill chunk next =>
      obtain ⟨rfl, hinput⟩ := hcarries
      cases hstep with
      | @fill _ part _ hle hpart =>
          obtain ⟨rfl, hinput'⟩ := hcarries'
          obtain ⟨more, rfl⟩ : part <+: chunk :=
            List.prefix_of_prefix_length_le (hinput' ▸ List.prefix_append part toLeft₂)
              (hinput ▸ List.prefix_append chunk toLeft₁) hle
          have hleft : toLeft₂ = more ++ toLeft₁ := by
            rw [hinput, List.append_assoc] at hinput'
            exact (List.append_cancel_left hinput').symm
          split
          · rename_i hfull
            have hnil : more = [] := by simpa using hfull
            rw [hnil, List.append_nil, hleft, hnil]
            exact .inl rfl
          · rename_i hfull
            have hsome : part ≠ [] := fun hnil =>
              hfull (by rw [hpart hnil, hnil, List.length_nil])
            have hpos := List.length_pos_iff.mpr hsome
            have hturn := Prog.Turn.fill more fun more => next (part ++ more)
            refine .inr ⟨more.length + 1, ?_, .take more, ?_, ⟨rfl, hleft⟩, rfl⟩
            · rw [List.length_append]
              omega
            · rwa [List.length_append, Nat.add_sub_cancel_left]
      | cut _ _ => cases hcarries'
  | byte b next =>
      obtain ⟨rfl, rfl⟩ := hcarries
      cases hstep with
      | @read _ chunk _ hle hchunk =>
          obtain ⟨rfl, hinput⟩ := hcarries'
          obtain ⟨c, rfl⟩ := List.length_eq_one_iff.mp
            (Nat.le_antisymm hle (List.length_pos_iff.mpr hchunk))
          obtain ⟨rfl, rfl⟩ := List.cons.inj hinput
          exact .inl rfl
      | closed => cases hcarries'
      | cut _ _ => cases hcarries'
  | ask question reply next =>
      obtain ⟨rfl, rfl, rfl⟩ := hcarries
      cases hstep with
      | ask reply' =>
          obtain ⟨rfl, rfl, rfl⟩ := hcarries'
          exact .inl rfl
      | cut _ _ => cases hcarries'

theorem Turn.commutes (hturn : Turn answer' work before.swap after.swap)
    (hhalf : Half answer before other) :
    ∃ last, Half answer after last ∧ Turn answer' work other.swap last.swap := by
  obtain ⟨event', hmove, hcarries', hleft⟩ := hturn
  obtain ⟨event, hstep, hcarries, hright⟩ := hhalf
  obtain ⟨toRight, toLeft, hlast, hlast'⟩ := hcarries.commutes hcarries'
  refine ⟨⟨other.left, toRight, toLeft, after.right⟩, ⟨event, ?_, hlast, rfl⟩,
    ⟨event', ?_, hlast', rfl⟩⟩
  · exact (congrArg (Prog.Step · event other.left) hleft.symm).mp hstep
  · exact (congrArg (Prog.Turn · event' work after.right) hright.symm).mp hmove

/-- One schedule of turns that ends in `final`, and its work. -/
inductive Schedule (answer : κ → Bool) (answer' : κ' → Bool) (final : Duplex κ ε α κ' ε' β) :
    Nat → Duplex κ ε α κ' ε' β → Prop
  | nil : Schedule answer answer' final 0 final
  | left {work rest : Nat} {before after : Duplex κ ε α κ' ε' β}
      (hturn : Turn answer work before after)
      (hrest : Schedule answer answer' final rest after) :
      Schedule answer answer' final (rest + work) before
  | right {work rest : Nat} {before after : Duplex κ ε α κ' ε' β}
      (hturn : Turn answer' work before.swap after.swap)
      (hrest : Schedule answer answer' final rest after) :
      Schedule answer answer' final (rest + work) before

variable {final : Duplex κ ε α κ' ε' β} {duplex : Duplex κ ε α κ' ε' β}

theorem Schedule.swap (hschedule : Schedule answer answer' final work duplex) :
    Schedule answer' answer final.swap work duplex.swap := by
  induction hschedule with
  | nil => exact .nil
  | @left work _ before after hturn _ ih =>
      have hturn' : Turn answer work before.swap.swap after.swap.swap := hturn
      exact .right hturn' ih
  | right hturn _ ih => exact .left hturn ih

theorem Schedule.half (hended : ¬ final.left.Live)
    (hschedule : Schedule answer answer' final work duplex) (hhalf : Half answer duplex other) :
    ∃ less < work, Schedule answer answer' final less other := by
  induction hschedule generalizing other with
  | nil =>
      obtain ⟨event, hstep, _⟩ := hhalf
      exact absurd hstep.live hended
  | @left work rest before after hturn hrest ih =>
      obtain ⟨_, hmove, _⟩ := id hturn
      obtain rfl | ⟨less, hless, hturn'⟩ := hturn.absorbs hhalf
      · exact ⟨rest, Nat.lt_add_of_pos_right hmove.pos, hrest⟩
      · exact ⟨rest + less, Nat.add_lt_add_left hless rest, .left hturn' hrest⟩
  | @right work rest before after hturn hrest ih =>
      obtain ⟨last, hlast, hturn'⟩ := Turn.commutes hturn hhalf
      obtain ⟨less, hless, hless'⟩ := ih hlast
      exact ⟨less + work, Nat.add_lt_add_right hless work, .right hturn' hless'⟩

theorem Schedule.step (hleft : ¬ final.left.Live) (hright : ¬ final.right.Live)
    (hschedule : Schedule answer answer' final work duplex)
    (hstep : Step answer answer' duplex other) :
    ∃ less < work, Schedule answer answer' final less other := by
  obtain hhalf | hhalf := hstep
  · exact hschedule.half hleft hhalf
  · obtain ⟨less, hless, hother⟩ := Schedule.half hright hschedule.swap hhalf
    exact ⟨less, hless, hother.swap⟩

theorem Schedule.live (hschedule : Schedule answer answer' final work duplex) :
    duplex = final ∨ ∃ next, Step answer answer' duplex next := by
  cases hschedule with
  | nil => exact .inl rfl
  | left hturn _ => exact .inr ⟨_, .inl hturn.half⟩
  | right hturn _ => exact .inr ⟨_, .inr hturn.half⟩

/-- Where one schedule ends, every run does: whose turn it is and how the bytes are cut makes
no difference. -/
theorem Schedule.inevitably (hleft : ¬ final.left.Live) (hright : ¬ final.right.Live)
    (hschedule : Schedule answer answer' final work duplex) :
    Inevitably (Step answer answer') (· = final) duplex :=
  Inevitably.of_work (fun _ _ hschedule => hschedule.live)
    (fun _ _ _ hschedule hstep => hschedule.step hleft hright hstep) hschedule

def Meets (answer : κ → Bool) (answer' : κ' → Bool) (final duplex : Duplex κ ε α κ' ε' β) : Prop :=
  ∃ work, Schedule answer answer' final work duplex

section

variable {toRight toLeft : Bytes} {left : Prog κ ε α} {right : Prog κ' ε' β}

theorem Meets.refl : Meets answer answer' final final := ⟨0, .nil⟩

theorem Meets.swap (hmeets : Meets answer answer' final duplex) :
    Meets answer' answer final.swap duplex.swap := by
  obtain ⟨work, hschedule⟩ := hmeets
  exact ⟨work, hschedule.swap⟩

theorem Meets.turn {next : Duplex κ ε α κ' ε' β} (hmeets : Meets answer answer' final next)
    (hturn : Turn answer work duplex next) : Meets answer answer' final duplex := by
  obtain ⟨rest, hschedule⟩ := hmeets
  exact ⟨rest + work, .left hturn hschedule⟩

theorem Meets.leftWrite {bytes : Bytes} {next : Prog κ ε α}
    (hmeets : Meets answer answer' final ⟨next, toRight ++ bytes, toLeft, right⟩) :
    Meets answer answer' final ⟨.write bytes next, toRight, toLeft, right⟩ :=
  hmeets.turn ⟨_, .put bytes next, ⟨rfl, rfl⟩, rfl⟩

theorem Meets.leftExact (chunk : Bytes) {input : Bytes} {n : Nat} {next : Bytes → Prog κ ε α}
    (hinput : input = chunk ++ toLeft) (hn : n = chunk.length)
    (hmeets : Meets answer answer' final ⟨next chunk, toRight, toLeft, right⟩) :
    Meets answer answer' final ⟨.exact n next, toRight, input, right⟩ := by
  subst hinput hn
  exact hmeets.turn ⟨_, .fill chunk next, ⟨rfl, rfl⟩, rfl⟩

theorem Meets.leftByte {b : UInt8} {next : Bytes → Prog κ ε α}
    (hmeets : Meets answer answer' final ⟨next [b], toRight, toLeft, right⟩) :
    Meets answer answer' final ⟨.read 1 next, toRight, b :: toLeft, right⟩ :=
  hmeets.turn ⟨_, .byte b next, ⟨rfl, rfl⟩, rfl⟩

theorem Meets.leftAsk {question : κ} {next : Bool → Prog κ ε α}
    (hmeets : Meets answer answer' final ⟨next (answer question), toRight, toLeft, right⟩) :
    Meets answer answer' final ⟨.ask question next, toRight, toLeft, right⟩ :=
  hmeets.turn ⟨_, .ask question (answer question) next, ⟨rfl, rfl, rfl⟩, rfl⟩

theorem Meets.rightWrite {bytes : Bytes} {next : Prog κ' ε' β}
    (hmeets : Meets answer answer' final ⟨left, toRight, toLeft ++ bytes, next⟩) :
    Meets answer answer' final ⟨left, toRight, toLeft, .write bytes next⟩ :=
  (Meets.leftWrite hmeets.swap).swap

theorem Meets.rightExact (chunk : Bytes) {input : Bytes} {n : Nat}
    {next : Bytes → Prog κ' ε' β} (hinput : input = chunk ++ toRight) (hn : n = chunk.length)
    (hmeets : Meets answer answer' final ⟨left, toRight, toLeft, next chunk⟩) :
    Meets answer answer' final ⟨left, input, toLeft, .exact n next⟩ :=
  (Meets.leftExact chunk hinput hn hmeets.swap).swap

theorem Meets.rightByte {b : UInt8} {next : Bytes → Prog κ' ε' β}
    (hmeets : Meets answer answer' final ⟨left, toRight, toLeft, next [b]⟩) :
    Meets answer answer' final ⟨left, b :: toRight, toLeft, .read 1 next⟩ :=
  (Meets.leftByte hmeets.swap).swap

theorem Meets.rightAsk {question : κ'} {next : Bool → Prog κ' ε' β}
    (hmeets : Meets answer answer' final ⟨left, toRight, toLeft, next (answer' question)⟩) :
    Meets answer answer' final ⟨left, toRight, toLeft, .ask question next⟩ :=
  (Meets.leftAsk hmeets.swap).swap

theorem Meets.inevitably (hleft : ¬ final.left.Live) (hright : ¬ final.right.Live)
    (hmeets : Meets answer answer' final duplex) :
    Inevitably (Step answer answer') (· = final) duplex := by
  obtain ⟨work, hschedule⟩ := hmeets
  exact hschedule.inevitably hleft hright

end

end Duplex

end Resocks5.Foundation
