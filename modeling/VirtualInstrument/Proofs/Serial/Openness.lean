import VirtualInstrument.Proofs.Serial.Course
/- When a link can be used. A connect that returns finds a device open, or opens one; whether the
   link is then in use, and its next command goes out, depends on the failures noticed since. -/
namespace VirtualInstrument.Serial

def Input.Silent : Input → Prop
  | .connect _ | .exchange _ _ | .close _ | .lost _ _ => False
  | _ => True

def Exchanges (call : Option Input) : Prop :=
  ∀ made, call = some made → ∃ ticket request, made = .exchange ticket request

/-- An exchange that goes on leaves the device as it is, and fails for the want of one only when
    there is none. -/
theorem Deed.exchange_keeps_port {link : Link} {input : Input} {call next : Option Input}
    {port : Port} {effects : List Effect} (deed : Deed link input call port effects next)
    (exchanges : Exchanges call) (kept : ∀ device loss, input ≠ .lost device loss) :
    port = link.port ∧ Exchanges next ∧
      ∀ ticket result, Effect.finish ticket result ∈ effects →
        (∃ fault, link.ready = .error fault) ∨ ¬ Stale result := by
  cases deed with
  | keeps plain later quiet =>
    refine ⟨rfl, exchanges, ?_⟩
    intro ticket result told
    exact absurd (quiet _ told) id
  | returns plain quiet asked named answered =>
    obtain ⟨own, request, rfl⟩ := exchanges _ asked
    refine ⟨rfl, nofun, ?_⟩
    intro ticket result told
    rcases List.mem_append.mp told with early | last
    · exact absurd (quiet _ early) id
    · cases List.mem_singleton.mp last
      exact answered.imp_left fun ⟨fault, refused, _⟩ => ⟨fault, refused⟩
  | loses told => exact absurd told (kept _ _)
  | makes plain asked shut => exact nomatch exchanges _ asked
  | opens asked => exact nomatch exchanges _ asked
  | fails asked => exact nomatch exchanges _ asked
  | shuts plain asked => exact nomatch exchanges _ asked
  | drops plain asked => exact nomatch exchanges _ asked

theorem Input.Silent.no_call_no_loss {input : Input} (silent : input.Silent) :
    input.call? = none ∧ ∀ device loss, input ≠ .lost device loss := by
  cases input with
  | connect ticket => exact absurd silent id
  | exchange ticket request => exact absurd silent id
  | close ticket => exact absurd silent id
  | lost device loss => exact absurd silent id
  | _ => exact ⟨rfl, nofun⟩

namespace Link

def effects (link : Link) : List Input → List Effect
  | [] => []
  | input :: rest => (link.step input).2 ++ (link.step input).1.effects rest

variable {link : Link} {input : Input}

/-- With no call under way, only a turn that is due does anything by itself. -/
theorem step_silent (opening : link.opening = []) (holder : link.holder = none)
    (leaving : link.leaving = []) (silent : input.Silent)
    (undue : link.promised = true → input ≠ .turn) : link.step input = (link, []) := by
  cases input with
  | connect ticket => exact absurd silent id
  | exchange ticket request => exact absurd silent id
  | close ticket => exact absurd silent id
  | lost device loss => exact absurd silent id
  | turn =>
    have still : link.promised = false := Bool.eq_false_iff.mpr fun due => undue due rfl
    simp [step, still]
  | opened ticket device error => simp [step, opening]
  | leave ticket => simp [step, leaving]
  | written error => simp [step, holder]
  | rested => simp [step, holder]
  | shut => simp [step, holder]
  | line device t => simp [step, holder]
  | expired ticket => simp [step, holder]

theorem effects_idle (idle : link.At .idle) {before : List Input}
    (silent : ∀ input ∈ before, input.Silent) (rest : List Input) :
    link.effects (before ++ rest) = link.effects rest := by
  induction before with
  | nil => rfl
  | cons input before ih =>
    obtain ⟨now, later⟩ := List.forall_mem_cons.mp silent
    have undue : link.promised = true → input ≠ .turn := by
      intro due
      rw [idle.promised] at due
      cases due
    have still := step_silent idle.opening idle.holder idle.leaving now undue
    show (link.step input).2 ++ (link.step input).1.effects (before ++ rest) = link.effects rest
    rw [still]
    exact ih later

theorem ready_stale {fault : Fault} (refused : link.ready = .error fault) :
    Stale (.error fault) := by
  unfold ready at refused
  split at refused
  · cases refused
    trivial
  · cases refused
  · cases refused
    trivial

structure Refusing (link : Link) : Prop where
  opening : link.opening = []
  holder : link.holder = none
  leaving : link.leaving = []
  waiting : ∀ ticket job, (ticket, job) ∈ link.waiting → ∃ request, job = .exchange request
  ready : ∃ fault, link.ready = .error fault

def Refuses (move : Move) : Prop :=
  move.1.Refusing ∧ ∀ ticket result, Effect.finish ticket result ∈ move.2 → Stale result

theorem Refusing.stays_refusing (refusing : link.Refusing) : Refuses (link, []) :=
  ⟨refusing, fun _ _ member => nomatch member⟩

theorem Refusing.release (refusing : link.Refusing) : Refuses link.release := by
  have free : ({ link with holder := none } : Link).Refusing :=
    ⟨refusing.opening, rfl, refusing.leaving, refusing.waiting, refusing.ready⟩
  unfold Link.release
  split
  · exact free.stays_refusing
  · refine ⟨⟨free.opening, rfl, free.leaving, free.waiting, free.ready⟩, ?_⟩
    intro ticket result told
    cases List.mem_singleton.mp told

theorem Refusing.finish (refusing : link.Refusing) (ticket : Ticket) {fault : Fault}
    (stale : Stale (.error fault)) : Refuses (link.finish ticket (.error fault)) := by
  obtain ⟨free, rest⟩ := refusing.release
  refine ⟨free, ?_⟩
  intro other result told
  rcases List.mem_cons.mp told with here | there
  · cases here
    exact stale
  · exact rest other result there

theorem Refusing.turn (refusing : link.Refusing) : Refuses link.turn := by
  obtain ⟨fault, refused⟩ := refusing.ready
  cases queue : link.waiting with
  | nil =>
    unfold Link.turn
    rw [queue]
    exact Refusing.stays_refusing ⟨refusing.opening, refusing.holder, refusing.leaving, nofun,
      refusing.ready⟩
  | cons first rest =>
    obtain ⟨ticket, job⟩ := first
    have member : (ticket, job) ∈ link.waiting := by
      rw [queue]
      exact List.mem_cons_self
    obtain ⟨request, rfl⟩ := refusing.waiting ticket job member
    have others : Refusing { link with promised := false, waiting := rest } := by
      refine ⟨refusing.opening, refusing.holder, refusing.leaving, ?_, fault, refused⟩
      intro other job later
      exact refusing.waiting other job (by rw [queue]; exact List.mem_cons_of_mem _ later)
    have whole : link.turn =
        ({ link with promised := false, waiting := rest } : Link).finish ticket (.error fault) := by
      unfold Link.turn
      rw [queue]
      show beginExchange _ ticket request = _
      unfold beginExchange
      rw [show ({ link with promised := false, waiting := rest } : Link).ready = .error fault
        from refused]
    rw [whole]
    exact others.finish ticket (ready_stale refused)

theorem Refusing.step_silent (refusing : link.Refusing) (silent : input.Silent) :
    Refuses (link.step input) := by
  by_cases turn : input = .turn
  · subst turn
    simp only [step]
    split
    · exact refusing.turn
    · exact refusing.stays_refusing
  · rw [Link.step_silent refusing.opening refusing.holder refusing.leaving silent fun _ => turn]
    exact refusing.stays_refusing

theorem Refusing.only_stale (refusing : link.Refusing) {inputs : List Input}
    (silent : ∀ input ∈ inputs, input.Silent) {ticket : Ticket} {result : Except Fault Response}
    (told : Effect.finish ticket result ∈ link.effects inputs) : Stale result := by
  induction inputs generalizing link with
  | nil => cases told
  | cons input inputs ih =>
    obtain ⟨now, later⟩ := List.forall_mem_cons.mp silent
    obtain ⟨onward, stale⟩ := refusing.step_silent now
    rcases List.mem_append.mp told with here | there
    · exact stale ticket result here
    · exact ih onward later there

theorem Refusing.next_is_refused (idle : link.At .idle) {fault : Fault}
    (refused : link.ready = .error fault)
    {before after : List Input} (first : ∀ input ∈ before, input.Silent)
    (last : ∀ input ∈ after, input.Silent) {next ticket : Ticket} {request : Request}
    {result : Except Fault Response} (told : Effect.finish ticket result ∈
      link.effects (before ++ .exchange next request :: after)) : Stale result := by
  rw [effects_idle idle first] at told
  have refusing : (link.enqueue next (.exchange request)).1.Refusing := by
    rw [enqueue_eq idle]
    refine ⟨idle.opening, idle.holder, idle.leaving, ?_, fault, refused⟩
    intro other job member
    cases List.mem_singleton.mp member
    exact ⟨request, rfl⟩
  rcases List.mem_append.mp told with here | there
  · have quiet : (link.step (.exchange next request)).2 = [.later .turn] :=
      congrArg Prod.snd (enqueue_eq idle next (.exchange request))
    rw [quiet] at here
    cases List.mem_singleton.mp here
  · exact refusing.only_stale last there

/-! A link that is in use -/

theorem ready_of_open {stage : Stage} (there : link.At stage) (exchanges : Exchanges stage.call?)
    (isOpen : link.isOpen = true) (fault : Fault) : link.ready ≠ .error fault := by
  obtain ⟨opened, kept⟩ : link.opened = true ∧ link.loss.isNone = true := by
    simpa [Link.isOpen] using isOpen
  have port := there.port
  have some : link.device.isSome = true := by
    cases stage with
    | opening ticket device => exact nomatch exchanges _ rfl
    | closing ticket => exact nomatch exchanges _ rfl
    | leaving ticket => exact nomatch exchanges _ rfl
    | idle => exact port.2 opened
    | queued ticket job => exact port.2 opened
    | exchanging ticket request => exact port.2 opened
  obtain ⟨device, current⟩ := Option.isSome_iff_exists.mp some
  unfold ready
  rw [Option.isNone_iff_eq_none.mp kept, current]
  nofun

/-- A link in use, at most with an exchange under way. -/
def Serving (link : Link) : Prop :=
  link.isOpen = true ∧ ∃ stage, link.At stage ∧ Exchanges stage.call?

theorem step_of_open {stage : Stage} (there : link.At stage) (exchanges : Exchanges stage.call?)
    (isOpen : link.isOpen = true) (input : Input)
    (alone : input.call?.isSome = true → stage = .idle)
    (asked : Exchanges (if input.call?.isSome then some input else stage.call?))
    (kept : ∀ device loss, input ≠ .lost device loss) :
    (link.step input).1.Serving ∧
      ∀ ticket result, Effect.finish ticket result ∈ (link.step input).2 → ¬ Stale result := by
  obtain ⟨next, leads, deed⟩ := step_leads there alone
  obtain ⟨same, onward, told⟩ := deed.exchange_keeps_port asked kept
  refine ⟨⟨?_, next, leads, onward⟩, ?_⟩
  · show ((link.step input).1.port.opened && (link.step input).1.port.loss.isNone) = true
    rw [same]
    exact isOpen
  · intro ticket result member
    rcases told ticket result member with ⟨fault, refused⟩ | proper
    · exact absurd refused (ready_of_open there exchanges isOpen fault)
    · exact proper

theorem Serving.never_stale (serving : link.Serving) {inputs : List Input}
    (silent : ∀ input ∈ inputs, input.Silent) {ticket : Ticket} {result : Except Fault Response}
    (told : Effect.finish ticket result ∈ link.effects inputs) : ¬ Stale result := by
  induction inputs generalizing link with
  | nil => cases told
  | cons input inputs ih =>
    obtain ⟨now, later⟩ := List.forall_mem_cons.mp silent
    obtain ⟨isOpen, stage, there, exchanges⟩ := serving
    obtain ⟨mute, kept⟩ := now.no_call_no_loss
    obtain ⟨onward, proper⟩ := step_of_open there exchanges isOpen input
      (fun call => by rw [mute] at call; cases call) (by rw [mute]; exact exchanges) kept
    rcases List.mem_append.mp told with here | there
    · exact proper ticket result here
    · exact ih onward later there

theorem served_next (idle : link.At .idle) (isOpen : link.isOpen = true) {before after : List Input}
    (first : ∀ input ∈ before, input.Silent) (last : ∀ input ∈ after, input.Silent)
    {next ticket : Ticket} {request : Request} {result : Except Fault Response}
    (told : Effect.finish ticket result ∈
      link.effects (before ++ .exchange next request :: after)) : ¬ Stale result := by
  rw [effects_idle idle first] at told
  have asked : Exchanges (some (.exchange next request)) := by
    intro made same
    cases same
    exact ⟨next, request, rfl⟩
  obtain ⟨serving, proper⟩ := step_of_open idle nofun isOpen (.exchange next request)
    (fun _ => rfl) asked nofun
  rcases List.mem_append.mp told with here | there
  · exact proper ticket result here
  · exact serving.never_stale last there

end Link

/-! Openness along a run -/

/-- While a device counts as opened, it is lost exactly when a failure was noticed. -/
def Tells (port : Port) (failed : Bool) : Prop :=
  port.opened = true → (port.loss = none ↔ failed = false)

theorem Deed.tells {c : Course} {input : Input} {call next : Option Input} {port : Port}
    {effects : List Effect} (deed : Deed c.link input call port effects next)
    (before : Tells c.link.port c.failed) : Tells port (c.fails input) := by
  cases deed with
  | keeps plain => exact c.fails_of_plain plain ▸ before
  | returns plain => exact c.fails_of_plain plain ▸ before
  | makes plain => exact c.fails_of_plain plain ▸ before
  | shuts plain => exact c.fails_of_plain plain ▸ before
  | drops plain =>
    intro opened
    cases opened
  | opens asked told listed =>
    subst told
    exact fun _ => by simp [Course.fails, listed]
  | fails asked told =>
    subst told
    exact before
  | @loses device loss told =>
    subst told
    unfold Link.lose
    cases loss with
    | closed =>
      split
      · intro opened
        cases opened
      · exact before
    | failed message =>
      split
      · rename_i watched
        intro _
        simp only [Course.fails, watched, Bool.true_or]
        constructor
        · intro kept
          cases kept
        · intro calm
          cases calm
      · rename_i unwatched
        simpa only [Course.fails, Bool.eq_false_iff.mpr unwatched, Bool.false_or] using before

theorem Reached.tells {config : Config} {c : Course} (reached : Reached config c) :
    Tells c.link.port c.failed := by
  induction reached with
  | start => exact nofun
  | take reached input alone ih => exact (reached.does alone).tells ih

/-- A connect that has returned leaves a link that is in use, and that serves the next command,
    exactly when no failure was noticed since a device opened last. -/
theorem connected_link_serves_iff {config : Config} {c : Course} (reached : Reached config c)
    {input : Input} (alone : c.Alone input) {ticket : Ticket} {response : Response}
    (connected : c.Returns input (.connect ticket) (.ok response)) :
    ((c.take input).link.isOpen = true ↔ (c.take input).failed = false) ∧
      ∀ before after : List Input, (∀ other ∈ before, other.Silent) →
        (∀ other ∈ after, other.Silent) → ∀ next request answered result,
          Effect.finish answered result ∈
            (c.take input).link.effects (before ++ .exchange next request :: after) →
          (¬ Stale result ↔ (c.take input).failed = false) := by
  have ⟨idle, account⟩ := reached.idle_after_return alone connected
  have opened : (c.take input).link.opened = true := by
    rcases account with ⟨same, answered⟩ | ⟨own, _, opened | ⟨fault, refused⟩⟩
    · exact (congrArg Port.opened same).trans answered.1
    · exact opened
    · cases refused
  have tells := (reached.take input alone).tells opened
  have usable : (c.take input).link.isOpen = true ↔ (c.take input).failed = false := by
    rw [← tells, Link.isOpen, opened, Bool.true_and]
    exact Option.isNone_iff_eq_none
  refine ⟨usable, ?_⟩
  intro before after first last next request answered result told
  rw [← usable]
  constructor
  · intro proper
    rw [Link.isOpen, opened, Bool.true_and]
    cases kept : (c.take input).link.loss with
    | none => rfl
    | some loss =>
      have refused : (c.take input).link.ready = .error (.lost loss) := by
        unfold Link.ready
        rw [kept]
      exact absurd (Link.Refusing.next_is_refused idle refused first last told) proper
  · intro isOpen
    exact Link.served_next idle isOpen first last told

/-- A link whose device opens serves a command. -/
theorem new_link_serves :
    let c := (Course.start (.ofOptions (text "/dev/tty") 115200 none none none)).take (.connect 0)
    let after := c.take (.opened 0 0 none)
    c.Returns (.opened 0 0 none) (.connect 0) (.ok .done) ∧ after.failed = false ∧
      after.link.isOpen = true ∧
      Effect.finish 1 (.ok .done) ∈ after.link.effects
        ([] ++ .exchange 1 ⟨.write, text "INIT", 0⟩ :: [.turn, .written none, .rested]) ∧
      ¬ Stale (.ok .done) := by
  intro c after
  have reached : Reached (.ofOptions (text "/dev/tty") 115200 none none none) c :=
    .take .start _ fun _ => rfl
  have alone : c.Alone (.opened 0 0 none) := nofun
  have connected : c.Returns (.opened 0 0 none) (.connect 0) (.ok .done) :=
    ⟨rfl, 0, rfl, .tail _ (.head _)⟩
  have sound : after.failed = false := rfl
  have answered : Effect.finish 1 (.ok .done) ∈ after.link.effects
      ([] ++ .exchange 1 ⟨.write, text "INIT", 0⟩ :: [.turn, .written none, .rested]) :=
    .tail _ (.tail _ (.tail _ (.head _)))
  obtain ⟨usable, serves⟩ := connected_link_serves_iff reached alone connected
  refine ⟨connected, sound, usable.mpr sound, answered, ?_⟩
  exact (serves [] _ nofun (by simp [Input.Silent]) _ _ _ _ answered).mpr sound

/-- A connect at a link whose device has failed returns at once and leaves the link as it is: it is
    not in use, and it refuses the next command. -/
theorem failed_link_is_connected :
    let c := [.connect 0, .opened 0 0 none, .lost 0 (.failed (text "boom"))].foldl Course.take
      (.start (.ofOptions (text "/dev/tty") 115200 none none none))
    Reached (.ofOptions (text "/dev/tty") 115200 none none none) c ∧ c.Alone (.connect 1) ∧
      c.Returns (.connect 1) (.connect 1) (.ok .done) ∧
      (c.take (.connect 1)).link.isOpen = false ∧
      Effect.finish 2 (.error (.lost (.failed (text "boom")))) ∈
        (c.take (.connect 1)).link.effects [.exchange 2 ⟨.write, text "INIT", 0⟩, .turn] := by
  intro c
  have reached : Reached (.ofOptions (text "/dev/tty") 115200 none none none) c :=
    .take (.take (.take .start (.connect 0) fun _ => rfl) (.opened 0 0 none) nofun)
      (.lost 0 (.failed (text "boom"))) nofun
  refine ⟨reached, fun _ => rfl, ⟨rfl, 1, rfl, .head _⟩, rfl, ?_⟩
  exact .tail _ (.head _)

end VirtualInstrument.Serial
