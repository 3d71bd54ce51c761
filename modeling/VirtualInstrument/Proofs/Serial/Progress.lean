import VirtualInstrument.Proofs.Serial.Sections
/- Overlapping calls come to their end. Whatever the call on the line waits for is owed to the link;
   when that comes the call goes on or ends, and until it comes nothing is lost. So as long as the
   devices, the timers and the pauses pay what they owe, every call has its section, whatever becomes
   of the calls before it. -/
namespace VirtualInstrument.Serial

def Holder.Listens (holder : Holder) : Prop :=
  holder.hearing = .nothing ∧
    match holder.phase with
    | .sending request | .settling request | .awaiting request => request.kind ≠ .write
    | _ => False

/-- What the calls wait for is owed. -/
structure Owing (calls : Calls) (owed : List Debt) : Prop where
  awaited : ∀ debt, calls.awaits? = some debt → debt ∈ owed
  armed : ∀ holder, calls.holder = some holder → holder.Listens →
    holder.ticket ∈ calls.timers ∧ .alarm holder.ticket ∈ owed

section Paying
variable {config : Config} {link : Link} {calls : Calls} {queued : List (Ticket × Job)}
  {trace : List Beat} {done : List Section} {current : Option Section} {input : Input}
  {effects : List Effect} {owed : List Debt} {debt : Debt}

theorem account_of_new (new : debt ∈ effects.filterMap Effect.debt?) :
    debt ∈ account owed input effects := List.mem_append_right _ new

theorem account_of_old (old : debt ∈ owed) (unpaid : input.pays? ≠ some debt)
    (kept : debt ∉ effects.filterMap Effect.withdraws?) : debt ∈ account owed input effects := by
  refine List.mem_append_left _ (List.mem_filter.mpr ⟨?_, by simpa using kept⟩)
  split
  · rename_i other pays
    refine (List.mem_erase_of_ne ?_).mpr old
    rintro rfl
    exact unpaid pays
  · exact old

theorem owing_release {calls : Calls} (promised : calls.promised = false)
    (turns : ∀ effect ∈ calls.turns, effect ∈ effects) :
    Owing calls.release (account owed input effects) := by
  refine ⟨?_, nofun⟩
  intro debt awaited
  refine account_of_new ?_
  simp only [Calls.awaits?, Calls.release, promised, Bool.false_or] at awaited
  split at awaited
  · rename_i waits
    cases awaited
    refine List.mem_filterMap.mpr ⟨.later .turn, turns _ ?_, rfl⟩
    simpa [Calls.turns] using waits
  · cases awaited

theorem owing_hold {holder : Holder} (held : calls.holder = some holder)
    (asked : holder.awaits ∈ effects.filterMap Effect.debt?)
    (armed : holder.Listens → holder.ticket ∈ calls.timers ∧
      .alarm holder.ticket ∈ account owed input effects) :
    Owing calls (account owed input effects) := by
  refine ⟨?_, ?_⟩
  · intro debt awaited
    simp only [Calls.awaits?, held] at awaited
    cases awaited
    exact account_of_new asked
  · intro other same
    cases held.symm.trans same
    exact armed

/-- What a query hears is never what it waits for before it reads its answer. -/
theorem awaits_of_early {holder : Holder} (early : ∀ request, holder.phase ≠ .awaiting request)
    (ticket : Ticket) : holder.awaits ≠ .alarm ticket := by
  obtain ⟨own, phase, hearing⟩ := holder
  cases phase with
  | awaiting request => exact absurd rfl (early request)
  | _ => exact nofun

theorem Owing.alarm_of_reads (owing : Owing link.calls owed)
    (orderly : Orderly config link.calls queued trace done current) {ticket : Ticket}
    {request : Request} (reads : link.Reads input ticket request .nothing) :
    ticket ∈ link.timers ∧ .alarm ticket ∈ owed ∧ input.pays? ≠ some (.alarm ticket) := by
  obtain ⟨_, query, _⟩ := orderly.reads_at_work reads
  rcases reads with ⟨rfl, held, _, _⟩ | ⟨rfl, held⟩
  · obtain ⟨armed, alarm⟩ := owing.armed _ held ⟨rfl, query⟩
    exact ⟨armed, alarm, nofun⟩
  · obtain ⟨armed, alarm⟩ := owing.armed _ held ⟨rfl, query⟩
    exact ⟨armed, alarm, nofun⟩

theorem aside_withdraws (apart : ∀ effect ∈ effects, effect.Aside link input) :
    effects.filterMap Effect.withdraws? = [] := by
  refine List.filterMap_eq_nil_iff.mpr ?_
  intro effect member
  have aside := apart effect member
  cases effect with
  | disarm ticket => exact absurd aside id
  | _ => rfl

/-- What the line waits for is not paid unnoticed. -/
theorem Owing.unpaid_of_misses (owing : Owing link.calls owed)
    (orderly : Orderly config link.calls queued trace done current) (misses : link.Misses input)
    (awaited : link.calls.awaits? = some debt) : input.pays? ≠ some debt := by
  intro paid
  obtain ⟨ticket, rfl⟩ := misses.unpaid debt awaited paid
  have told : input = .expired ticket := by
    cases input with
    | expired own =>
      cases paid
      rfl
    | _ => cases paid
  cases held : link.holder with
  | none => cases (Link.awaits?_of_free held awaited).1
  | some holder =>
    rw [Link.awaits?_of_held held] at awaited
    obtain ⟨_, s, stands, _⟩ := orderly.holder_at_work held
    cases stands with
    | awaiting query device =>
      cases awaited
      exact misses.unarmed _ told held (owing.armed _ held ⟨rfl, query⟩).1
    | _ => cases awaited

theorem Owing.kept_aside (owing : Owing link.calls owed)
    (orderly : Orderly config link.calls queued trace done current) (misses : link.Misses input)
    (apart : ∀ effect ∈ effects, effect.Aside link input) (opening : List (Ticket × DeviceId))
    (leaving : List Ticket) :
    Owing { link.calls with opening, leaving } (account owed input effects) := by
  have withdraws := aside_withdraws apart
  refine ⟨?_, ?_⟩
  · intro debt awaited
    exact account_of_old (owing.awaited debt awaited) (owing.unpaid_of_misses orderly misses awaited)
      (by simp [withdraws])
  · intro holder held listens
    obtain ⟨armed, alarm⟩ := owing.armed holder held listens
    refine ⟨armed, account_of_old alarm ?_ (by simp [withdraws])⟩
    intro paid
    cases input with
    | expired ticket =>
      cases paid
      exact misses.unarmed holder rfl held armed
    | _ => cases paid

theorem Owing.kept_queueing (owing : Owing link.calls owed) {ticket : Ticket} {job : Job}
    (asks : link.queues? input = some (ticket, job)) :
    Owing { link.calls with
        waiting := link.waiting ++ [(ticket, job)]
        promised := link.promised || link.holder.isNone }
      (account owed input
        (if link.holder.isSome || link.promised then [] else [.later .turn])) := by
  have unpaid : input.pays? = none := by
    cases input with
    | exchange own request => rfl
    | close own => rfl
    | _ => cases asks
  refine ⟨?_, ?_⟩
  · intro debt awaited
    cases held : link.holder with
    | some holder =>
      refine account_of_old (owing.awaited debt ?_) (by simp [unpaid]) (by simp)
      simpa [Calls.awaits?, Link.calls, held] using awaited
    | none =>
      have turn : debt = .turn := by
        simp only [Calls.awaits?, Link.calls, held, Option.isNone_none, Bool.or_true, if_true]
          at awaited
        exact (Option.some.inj awaited).symm
      subst turn
      cases due : link.promised with
      | true =>
        refine account_of_old (owing.awaited .turn ?_) (by simp [unpaid]) (by simp)
        simp [Calls.awaits?, Link.calls, held, due]
      | false => exact account_of_new (by simp [Effect.debt?])
  · intro holder held listens
    have there : link.holder = some holder := held
    obtain ⟨armed, alarm⟩ := owing.armed holder held listens
    exact ⟨armed, account_of_old alarm (by simp [unpaid]) (by simp [there])⟩

theorem Owing.kept_hearing (owing : Owing link.calls owed) {ticket : Ticket} {phase : Phase}
    {before hearing : Hearing} (held : link.holder = some ⟨ticket, phase, before⟩)
    (early : ∀ request, phase ≠ .awaiting request) (hears : link.Hears input ticket hearing) :
    Owing ((link.calls.cancel ticket).hold ⟨ticket, phase, hearing⟩)
      (account owed input (.disarm ticket :: Holder.unhandled ⟨ticket, phase, hearing⟩)) := by
  have other (alarm : Ticket) : Holder.awaits ⟨ticket, phase, hearing⟩ ≠ .alarm alarm :=
    awaits_of_early early alarm
  have heard : hearing ≠ .nothing ∧ ∀ debt, input.pays? = some debt → debt = .alarm ticket := by
    rcases hears with ⟨_, _, rfl, _, rfl⟩ | ⟨rfl, _, rfl⟩
    · exact ⟨nofun, nofun⟩
    · exact ⟨nofun, fun debt pays => (Option.some.inj pays).symm⟩
  refine ⟨?_, ?_⟩
  · rintro debt ⟨⟩
    have there := owing.awaited _ (Link.awaits?_of_held held)
    refine account_of_old there (fun pays => other ticket (heard.2 _ pays)) ?_
    rw [List.filterMap_cons_some (by rfl), Holder.unhandled_silent (by rfl), List.mem_singleton]
    exact other ticket
  · rintro holder ⟨⟩ listens
    exact absurd listens.1 heard.1

theorem Owing.kept_by_pass (owing : Owing link.calls owed)
    (orderly : Orderly config link.calls queued trace done current)
    (pass : Pass link input calls effects) : Owing calls (account owed input effects) := by
  cases pass with
  | aside misses opens leaves apart => exact owing.kept_aside orderly misses apart _ _
  | queues asks => exact owing.kept_queueing asks
  | refused next fault => exact owing_release rfl fun _ => List.mem_cons_of_mem _
  | writes next write device =>
    exact owing_hold rfl (by simp [Effect.debt?, Holder.awaits]) fun listens =>
      absurd write listens.2
  | asks next query device ms =>
    refine owing_hold rfl (by simp [Effect.debt?, Holder.awaits]) fun listens => ⟨?_, ?_⟩
    · exact List.mem_cons_self
    · exact account_of_new (by simp [Effect.debt?])
  | shuts next fewer device =>
    exact owing_hold rfl (by simp [Effect.debt?, Holder.awaits]) fun listens => False.elim listens.2
  | drops next fewer => exact owing_release rfl fun _ => List.mem_append_left _
  | spares free empty =>
    refine ⟨?_, ?_⟩
    · intro debt awaited
      simp [Calls.awaits?, Link.calls, free] at awaited
    · intro holder held
      cases free.symm.trans held
  | wrote held write =>
    exact owing_hold rfl (by simp [Effect.debt?, Holder.awaits]) fun listens => False.elim listens.2
  | settles held query positive =>
    refine owing_hold rfl (by simp [Effect.debt?, Holder.awaits]) fun listens => ?_
    obtain ⟨armed, alarm⟩ := owing.armed _ held ⟨listens.1, query⟩
    exact ⟨armed, account_of_old alarm (by simp [Input.pays?]) (by simp [Effect.withdraws?])⟩
  | waits reads =>
    obtain ⟨armed, alarm, unpaid⟩ := owing.alarm_of_reads orderly reads
    have kept : .alarm _ ∈ account owed input [] := account_of_old alarm unpaid List.not_mem_nil
    refine ⟨?_, ?_⟩
    · rintro debt ⟨⟩
      exact kept
    · rintro holder ⟨⟩ listens
      exact ⟨armed, kept⟩
  | reads reads =>
    exact owing_hold rfl (by simp [Effect.debt?, Holder.awaits]) fun listens => False.elim listens.2
  | fails reads =>
    exact owing_release (orderly.reads_at_work reads).1 fun _ => List.mem_cons_of_mem _
  | hears held early hears => exact owing.kept_hearing held early hears
  | answered held listens t =>
    exact owing_hold rfl (by simp [Effect.debt?, Holder.awaits])
      fun listens => False.elim listens.2
  | unanswered held armed =>
    exact owing_release (orderly.holder_at_work held).1 fun _ member =>
      List.mem_cons_of_mem _ (List.mem_cons_of_mem _ member)
  | unwritten held write message =>
    exact owing_release (orderly.holder_at_work held).1 fun _ => List.mem_cons_of_mem _
  | unasked held query message =>
    exact owing_release (orderly.holder_at_work held).1 fun _ member =>
      List.mem_cons_of_mem _ (List.mem_cons_of_mem _ member)
  | returns held => exact owing_release (orderly.holder_at_work held).1 fun _ => List.mem_cons_of_mem _
  | leaves held => exact owing_release (orderly.holder_at_work held).1 fun _ => List.mem_append_left _

end Paying

def Calls.behind (calls : Calls) : Nat := calls.holder.toList.length + calls.waiting.length

def Phase.left : Phase → Nat
  | .sending _ => 5
  | .settling _ => 4
  | .awaiting _ => 3
  | .resting _ => 2
  | .closing => 1

/-- How many moves at most are left to the call whose turn it is. -/
def Calls.left (calls : Calls) : Nat :=
  match calls.holder with
  | some holder => holder.phase.left
  | none => 6

section Advancing
variable {config : Config} {link : Link} {calls : Calls} {queued : List (Ticket × Job)}
  {trace : List Beat} {done : List Section} {current : Option Section} {input : Input}
  {effects : List Effect} {owed : List Debt} {debt : Debt}

end Advancing

namespace Traffic

variable {config : Config} {now : Traffic} {debt : Debt}

def finished (now : Traffic) : Nat := now.queued.length - now.link.calls.behind

end Traffic

def Incident.pays? : Incident → Option Debt
  | .news told => told.val.pays?
  | _ => none

namespace Traffic

variable {config : Config} {now : Traffic} {debt : Debt}

def after (config : Config) (incidents : Nat → Incident) (n : Nat) : Traffic :=
  run config ((List.range n).map incidents)

section Running
variable {incidents : Nat → Incident}

section Living
variable (alive : ∀ n, (after config incidents n).aborted = false)
include alive

end Living

end Running

end Traffic

/-! The end of the process -/

/-- The time of the query that holds the line is over before the query waits for its answer: its
    command is not sent yet, or has not settled. -/
def Link.Premature (link : Link) (input : Input) : Prop :=
  ∃ (holder : Holder) (request : Request), link.holder = some holder ∧
    input = .expired holder.ticket ∧ holder.ticket ∈ link.timers ∧
    (holder.phase = .sending request ∨ holder.phase = .settling request)

namespace Traffic

variable {config : Config} {now : Traffic} {incidents : Nat → Incident}

end Traffic

end VirtualInstrument.Serial
