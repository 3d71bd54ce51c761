import VirtualInstrument.Proofs.Serial.Turns
/- Runs of a link in which calls are made one at a time, and what an observer writes down: the
   devices that have opened, those that have told that they closed, those that were shut, and those
   whose use was disturbed. -/
namespace VirtualInstrument.Serial

structure Ledger where
  opened : List DeviceId
  closed : List DeviceId
  shut : List DeviceId
  /-- Whether a failure was noticed since a device opened last. -/
  failed : Bool
  /-- The devices that were in use when a failure was noticed, or the closing of another device. -/
  disturbed : List DeviceId

/-- A device is in use while it is open and listened to. -/
def Ledger.InUse (ledger : Ledger) (port : Port) (device : DeviceId) : Prop :=
  port.device = some device ∧ device ∈ ledger.opened ∧ device ∈ port.watched

/-- A link in a run, with the call that is to return and the observer's ledger. -/
structure Course extends Ledger where
  link : Link
  pending : Option Input

def Effect.shut? : Effect → Option DeviceId
  | .shut device => some device
  | _ => none

def Effect.returns (call : Option Input) : Effect → Bool
  | .finish ticket _ => call.bind Input.call? == some ticket
  | _ => false

namespace Course

def start (config : Config) : Course :=
  ⟨⟨[], [], [], false, []⟩, .start config, none⟩

def asked (c : Course) (input : Input) : Option Input :=
  if input.call?.isSome then some input else c.pending

def inUse? (c : Course) : Option DeviceId :=
  c.link.device.filter fun device => c.opened.contains device && c.link.watched.contains device

def opens (c : Course) : Input → List DeviceId
  | .opened ticket device none => if c.link.opening.contains (ticket, device) then [device] else []
  | _ => []

def closes : Input → List DeviceId
  | .lost device .closed => [device]
  | _ => []

def fails (c : Course) : Input → Bool
  | .opened ticket device none => !c.link.opening.contains (ticket, device) && c.failed
  | .lost device (.failed _) => c.link.watched.contains device || c.failed
  | _ => c.failed

def disturbs (c : Course) : Input → List DeviceId
  | .lost device loss =>
    if c.link.watched.contains device && (loss != .closed || c.inUse? != some device) then
      c.inUse?.toList
    else []
  | _ => []

def note (c : Course) (input : Input) (effects : List Effect) : Ledger where
  opened := c.opens input ++ c.opened
  closed := closes input ++ c.closed
  shut := effects.filterMap Effect.shut? ++ c.shut
  failed := c.fails input
  disturbed := c.disturbs input ++ c.disturbed

def take (c : Course) (input : Input) : Course :=
  let (link, effects) := c.link.step input
  { c.note input effects with
    link
    pending := if effects.any (·.returns (c.asked input)) then none else c.asked input }

def Alone (c : Course) (input : Input) : Prop := input.call?.isSome = true → c.pending = none

def Returns (c : Course) (input call : Input) (result : Except Fault Response) : Prop :=
  c.asked input = some call ∧
    ∃ ticket, call.call? = some ticket ∧ Effect.finish ticket result ∈ (c.link.step input).2

end Course

/-- The courses that the calls of a run can take, one at a time, whatever happens meanwhile. -/
inductive Reached (config : Config) : Course → Prop
  | start : Reached config (.start config)
  | take {c : Course} (reached : Reached config c) (input : Input) (alone : c.Alone input) :
      Reached config (c.take input)

theorem stage_of_call {stage : Stage} (idle : stage.call? = none) : stage = .idle := by
  cases stage with
  | idle => rfl
  | queued ticket job => cases job <;> cases idle
  | _ => cases idle

theorem not_returns_of_quiet {effects : List Effect} (quiet : ∀ effect ∈ effects, effect.Quiet)
    (call : Option Input) : effects.any (·.returns call) = false := by
  refine List.any_eq_false.mpr ?_
  intro effect member
  have calm := quiet effect member
  cases effect with
  | finish ticket result => cases calm
  | _ => exact Bool.false_ne_true

theorem shut?_of_quiet {effects : List Effect} (quiet : ∀ effect ∈ effects, effect.Quiet) :
    effects.filterMap Effect.shut? = [] := by
  refine List.filterMap_eq_nil_iff.mpr ?_
  intro effect member
  have calm := quiet effect member
  cases effect with
  | shut device => cases calm
  | _ => rfl

theorem Deed.next_pending {link : Link} {input : Input} {call next : Option Input} {port : Port}
    {effects : List Effect} (deed : Deed link input call port effects next) :
    (if effects.any (·.returns call) then none else call) = next := by
  cases deed with
  | keeps plain later quiet => rw [not_returns_of_quiet quiet, if_neg Bool.false_ne_true]
  | returns plain quiet asked named answered =>
    simp [Effect.returns, asked, named]
  | makes plain asked shut => simp [Effect.returns]
  | opens asked told listed current last watched line => simp [Effect.returns, asked, Input.call?]
  | fails asked told current last => simp [Effect.returns, asked, Input.call?]
  | shuts plain asked current watched isOpen => simp [Effect.returns]
  | drops plain asked kept released quiet =>
    rw [not_returns_of_quiet quiet, if_neg Bool.false_ne_true]
  | loses told => rfl

/-- What a deed leaves of the device that returns a call. -/
theorem Deed.next_of_return {link : Link} {input made : Input} {next : Option Input} {port : Port}
    {effects : List Effect} (deed : Deed link input (some made) port effects next)
    {ticket : Ticket} {result : Except Fault Response}
    (told : Effect.finish ticket result ∈ effects) :
    next = none ∧
      ((port = link.port ∧ made.Answered link result) ∨
        ∃ own, made = .connect own ∧ (port.opened = true ∨ ∃ fault, result = .error fault)) := by
  cases deed with
  | keeps plain later quiet => exact absurd (quiet _ told) id
  | returns plain quiet asked named answered =>
    cases asked
    rcases List.mem_append.mp told with early | last
    · exact absurd (quiet _ early) id
    · cases List.mem_singleton.mp last
      exact ⟨rfl, .inl ⟨rfl, answered⟩⟩
  | opens asked =>
    cases asked
    exact ⟨rfl, .inr ⟨_, rfl, .inl rfl⟩⟩
  | fails asked =>
    cases asked
    cases List.mem_singleton.mp told
    exact ⟨rfl, .inr ⟨_, rfl, .inr ⟨_, rfl⟩⟩⟩
  | drops plain asked kept released quiet => exact absurd (quiet _ told) id
  | makes plain asked shut => simp at told
  | shuts plain => simp at told
  | loses told' => cases told

namespace Course

abbrev Does (c : Course) (input : Input) : Prop :=
  Deed c.link input (c.asked input) (c.take input).link.port (c.link.step input).2
    (c.take input).pending

theorem take_leads {c : Course} {stage : Stage} (there : c.link.At stage)
    (named : stage.call? = c.pending) {input : Input} (alone : c.Alone input) :
    (∃ next, (c.take input).link.At next ∧ next.call? = (c.take input).pending) ∧
      c.Does input := by
  have idle : input.call?.isSome = true → stage = .idle :=
    fun call => stage_of_call (named.trans (alone call))
  obtain ⟨next, leads, deed⟩ := Link.step_leads there idle
  rw [named] at deed
  have pending : (c.take input).pending = next.call? := deed.next_pending
  refine ⟨⟨next, leads, pending.symm⟩, ?_⟩
  unfold Does
  rw [pending]
  exact deed

end Course

theorem Reached.stage_exists {config : Config} {c : Course} (reached : Reached config c) :
    ∃ stage, c.link.At stage ∧ stage.call? = c.pending := by
  induction reached with
  | start =>
    refine ⟨.idle, ⟨rfl, rfl, rfl, rfl, rfl, ?_, ?_⟩, rfl⟩
    · intro device current
      cases current
    · intro opened
      cases opened
  | take reached input alone ih =>
    obtain ⟨stage, there, named⟩ := ih
    exact (Course.take_leads there named alone).1

theorem Reached.does {config : Config} {c : Course} (reached : Reached config c) {input : Input}
    (alone : c.Alone input) : c.Does input := by
  obtain ⟨stage, there, named⟩ := reached.stage_exists
  exact (Course.take_leads there named alone).2

theorem Reached.idle_after_return {config : Config} {c : Course} (reached : Reached config c)
    {input : Input} (alone : c.Alone input) {call : Input} {result : Except Fault Response}
    (returns : c.Returns input call result) :
    (c.take input).link.At .idle ∧
      (((c.take input).link.port = c.link.port ∧ call.Answered c.link result) ∨
        ∃ own, call = .connect own ∧
          ((c.take input).link.opened = true ∨ ∃ fault, result = .error fault)) := by
  obtain ⟨asked, ticket, named, told⟩ := returns
  have deed := reached.does alone
  unfold Course.Does at deed
  rw [asked] at deed
  obtain ⟨ended, account⟩ := deed.next_of_return told
  obtain ⟨stage, there, idle⟩ := (reached.take input alone).stage_exists
  cases stage_of_call (idle.trans ended)
  exact ⟨there, account⟩

/-! What an observer writes down of an input that brings no news -/

namespace Course

variable {c : Course} {input : Input}

theorem opens_of_plain (plain : input.Plain c.link) : c.opens input = [] := by
  cases input with
  | opened ticket device error =>
    cases error with
    | none =>
      have absent : (ticket, device) ∉ c.link.opening := plain
      simp [opens, absent]
    | some message => rfl
  | _ => rfl

theorem closes_of_plain (plain : input.Plain c.link) : closes input = [] := by
  cases input with
  | lost device loss => exact absurd plain id
  | _ => rfl

theorem fails_of_plain (plain : input.Plain c.link) : c.fails input = c.failed := by
  cases input with
  | opened ticket device error =>
    cases error with
    | none =>
      have absent : (ticket, device) ∉ c.link.opening := plain
      simp [fails, absent]
    | some message => rfl
  | lost device loss => exact absurd plain id
  | _ => rfl

theorem disturbs_of_plain (plain : input.Plain c.link) : c.disturbs input = [] := by
  cases input with
  | lost device loss => exact absurd plain id
  | _ => rfl

end Course

end VirtualInstrument.Serial
