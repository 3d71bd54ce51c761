import VirtualInstrument.Proofs.Serial.Course
/- What becomes of the devices that have opened. One that is in use stays so until a call closes
   it, or until a connect puts a new one in its place; it is shut then unless its use was
   disturbed before. -/
namespace VirtualInstrument.Serial

def Port.isOpen (port : Port) : Bool := port.opened && port.loss.isNone

namespace Ledger

/-- A device has told that it closed, or was shut. -/
def Gone (ledger : Ledger) (device : DeviceId) : Prop :=
  device ∈ ledger.closed ∨ device ∈ ledger.shut

/-- A device has told that it closed, or nothing disturbed its use. -/
def Tidy (ledger : Ledger) (device : DeviceId) : Prop :=
  device ∈ ledger.closed ∨ device ∉ ledger.disturbed

structure Kept (ledger : Ledger) (port : Port) (call : Option Input) : Prop where
  shut : ∀ device ∈ ledger.shut, device ∈ ledger.opened
  disturbed : ∀ device ∈ ledger.disturbed, device ∈ ledger.opened
  made : ∀ device ∈ ledger.opened, device < port.made
  opening : ∀ ticket, call = some (.connect ticket) → ∀ device ∈ ledger.opened,
    device + 1 < port.made
  opened : ∀ device, port.device = some device → port.opened = true → device ∈ ledger.opened
  unshut : ∀ device, ledger.InUse port device → device ∉ ledger.shut
  calm : ∀ device, ledger.InUse port device → port.isOpen = true → device ∉ ledger.disturbed
  upset : ∀ device, ledger.InUse port device → port.isOpen = false →
    device ∈ ledger.closed ∨ device ∈ ledger.disturbed
  released : ∀ device ∈ ledger.opened, ¬ ledger.InUse port device →
    (ledger.Gone device ↔ ledger.Tidy device)

variable {ledger : Ledger} {port next : Port} {call : Option Input}

theorem Kept.of_unused (shut : ∀ device ∈ ledger.shut, device ∈ ledger.opened)
    (disturbed : ∀ device ∈ ledger.disturbed, device ∈ ledger.opened)
    (made : ∀ device ∈ ledger.opened, device < port.made)
    (opening : ∀ ticket, call = some (.connect ticket) → ∀ device ∈ ledger.opened,
      device + 1 < port.made)
    (opened : ∀ device, port.device = some device → port.opened = true → device ∈ ledger.opened)
    (unused : ∀ device, ¬ ledger.InUse port device)
    (released : ∀ device ∈ ledger.opened, ledger.Gone device ↔ ledger.Tidy device) :
    ledger.Kept port call where
  shut := shut
  disturbed := disturbed
  made := made
  opening := opening
  opened := opened
  unshut := fun device used => absurd used (unused device)
  calm := fun device used => absurd used (unused device)
  upset := fun device used => absurd used (unused device)
  released := fun device known _ => released device known

theorem Kept.gone_iff (kept : ledger.Kept port call) {device : DeviceId}
    (opened : device ∈ ledger.opened)
    (left : ledger.InUse port device → port.isOpen = false) :
    ledger.Gone device ↔ ledger.Tidy device := by
  by_cases used : ledger.InUse port device
  · have unshut := kept.unshut device used
    have upset := kept.upset device used (left used)
    rcases upset with closed | disturbed
    · exact iff_of_true (.inl closed) (.inl closed)
    · simp [Gone, Tidy, unshut, disturbed]
  · exact kept.released device opened used

theorem Kept.release (kept : ledger.Kept port call) {onward : Option Input}
    (made : ∀ device ∈ ledger.opened, device < next.made)
    (opening : ∀ ticket, onward = some (.connect ticket) → ∀ device ∈ ledger.opened,
      device + 1 < next.made)
    (left : ∀ device, ledger.InUse port device → port.isOpen = false)
    (unopened : next.opened = false ∨ next.device = none)
    (unused : ∀ device, ¬ ledger.InUse next device) : ledger.Kept next onward := by
  refine .of_unused kept.shut kept.disturbed made opening ?_ unused ?_
  · intro device current opened
    rcases unopened with shut | absent
    · exact absurd (shut.symm.trans opened) Bool.false_ne_true
    · cases absent.symm.trans current
  · exact fun device opened => kept.gone_iff opened (left device)

/-- News of the devices. One that stays in use is disturbed when it is open no longer, unless it has
    closed. -/
theorem Kept.kept_with_news (kept : ledger.Kept port call) (closed disturbed : List DeviceId)
    (failed : Bool) (device : next.device = port.device) (watched : next.watched = port.watched)
    (made : next.made = port.made) (opened : next.opened = true → port.opened = true)
    (own : ∀ device ∈ disturbed, ledger.InUse port device)
    (unclosed : next.isOpen = true → port.isOpen = true ∧ disturbed = [])
    (upset : ∀ device, ledger.InUse port device → next.isOpen = false →
      port.isOpen = false ∨ device ∈ closed ∨ device ∈ disturbed) :
    Kept ⟨ledger.opened, closed ++ ledger.closed, ledger.shut, failed,
      disturbed ++ ledger.disturbed⟩ next call := by
  have still : ∀ device, InUse ⟨ledger.opened, closed ++ ledger.closed, ledger.shut, failed,
      disturbed ++ ledger.disturbed⟩ next device → ledger.InUse port device :=
    fun other used => ⟨device ▸ used.1, used.2.1, watched ▸ used.2.2⟩
  refine ⟨kept.shut, ?_, made ▸ kept.made, made ▸ kept.opening, ?_, ?_, ?_, ?_, ?_⟩
  · intro other member
    rcases List.mem_append.mp member with new | old
    · exact (own other new).2.1
    · exact kept.disturbed other old
  · intro other current now
    exact kept.opened other (device ▸ current) (opened now)
  · exact fun other used => kept.unshut other (still other used)
  · intro other used now
    obtain ⟨before, none⟩ := unclosed now
    rw [none]
    exact kept.calm other (still other used) before
  · intro other used now
    rcases upset other (still other used) now with before | closed | disturbed
    · exact (kept.upset other (still other used) before).imp (List.mem_append_right _)
        (List.mem_append_right _)
    · exact .inl (List.mem_append_left _ closed)
    · exact .inr (List.mem_append_left _ disturbed)
  · intro other known unused
    have idle : ¬ ledger.InUse port other := fun used =>
      unused ⟨device.symm ▸ used.1, used.2.1, watched.symm ▸ used.2.2⟩
    have before := kept.released other known idle
    -- Only a device in use can be disturbed, so that the news of this one is that it closed.
    by_cases new : other ∈ closed
    · have told := List.mem_append_left ledger.closed new
      exact iff_of_true (.inl told) (.inl told)
    · have calm : other ∉ disturbed := fun member => idle (own other member)
      simpa [Gone, Tidy, new, calm] using before

end Ledger

open Ledger

namespace Course

variable {c : Course} {input : Input} {effects : List Effect}

theorem inUse?_eq_some {device : DeviceId} :
    c.inUse? = some device ↔ c.InUse c.link.port device := by
  simp [inUse?, InUse, Link.port, Option.filter_eq_some_iff]

theorem note_of_plain (plain : input.Plain c.link) (effects : List Effect) :
    c.note input effects =
      { c.toLedger with shut := effects.filterMap Effect.shut? ++ c.shut } := by
  unfold note
  rw [opens_of_plain plain, closes_of_plain plain, fails_of_plain plain, disturbs_of_plain plain]
  rfl

theorem note_of_quiet (plain : input.Plain c.link) (quiet : effects.filterMap Effect.shut? = []) :
    c.note input effects = c.toLedger := by
  rw [note_of_plain plain, quiet]
  rfl

theorem kept_opens {ticket : Ticket} {device : DeviceId}
    (kept : c.Kept c.link.port (some (.connect ticket)))
    (listed : (ticket, device) ∈ c.link.opening)
    (current : c.link.device = some device) (last : c.link.made = device + 1)
    (watched : device ∈ c.link.watched) (effects : List Effect)
    (quiet : effects.filterMap Effect.shut? = []) :
    (c.note (.opened ticket device none) effects).Kept
      { c.link.port with opened := true, loss := none } none := by
  have older : ∀ other ∈ c.opened, other < device := by
    intro other opened
    have bound : other + 1 < c.link.made := kept.opening ticket rfl other opened
    rw [last] at bound
    exact Nat.lt_of_succ_lt_succ bound
  -- The device was made last, so that nothing is in the ledger of it yet.
  have fresh : device ∉ c.opened := fun opened => absurd (older device opened) (Nat.lt_irrefl _)
  have whole : c.note (.opened ticket device none) effects =
      { c.toLedger with opened := device :: c.opened, failed := false } := by
    simp [note, quiet, opens, closes, fails, disturbs, listed]
  rw [whole]
  have used : ∀ other, InUse { c.toLedger with opened := device :: c.opened, failed := false }
      { c.link.port with opened := true, loss := none } other → other = device := by
    intro other inUse
    exact Option.some.inj (inUse.1.symm.trans current)
  refine ⟨fun _ member => .tail _ (kept.shut _ member),
    fun _ member => .tail _ (kept.disturbed _ member), ?_, ?_, ?_, ?_, ?_, ?_, ?_⟩
  · intro other opened
    show other < c.link.made
    rw [last]
    rcases List.mem_cons.mp opened with rfl | opened
    · exact Nat.lt_succ_self _
    · exact Nat.lt_succ_of_lt (older other opened)
  · intro _ asked
    cases asked
  · intro other now _
    cases current.symm.trans now
    exact List.mem_cons_self
  · intro other inUse shut
    cases used other inUse
    exact fresh (kept.shut _ shut)
  · intro other inUse _ disturbed
    cases used other inUse
    exact fresh (kept.disturbed _ disturbed)
  · intro _ _ lost
    cases lost
  · intro other opened unused
    rcases List.mem_cons.mp opened with rfl | opened
    · exact absurd ⟨current, List.mem_cons_self, watched⟩ unused
    · refine kept.released other opened ?_
      intro inUse
      cases current.symm.trans inUse.1
      exact fresh opened

theorem kept_shuts {ticket : Ticket} {device : DeviceId}
    (kept : c.Kept c.link.port c.pending) (current : c.link.device = some device)
    (watched : device ∈ c.link.watched) (isOpen : c.link.isOpen = true) :
    Kept { c.toLedger with shut := device :: c.shut } (c.link.port.forget device)
      (some (.close ticket)) := by
  have opened : device ∈ c.opened := kept.opened device current (Bool.and_eq_true_iff.mp isOpen).1
  have inUse : c.InUse c.link.port device := ⟨current, opened, watched⟩
  have unused : ∀ other,
      ¬ InUse { c.toLedger with shut := device :: c.shut } (c.link.port.forget device) other := by
    intro other used
    cases current.symm.trans used.1
    simp [InUse, Port.forget] at used
  refine .of_unused ?_ kept.disturbed kept.made nofun kept.opened unused ?_
  · exact List.forall_mem_cons.mpr ⟨opened, kept.shut⟩
  · intro other known
    by_cases same : other = device
    · subst same
      exact iff_of_true (.inr List.mem_cons_self) (.inr (kept.calm _ inUse isOpen))
    · have before := kept.released other known fun used =>
        same (Option.some.inj (used.1.symm.trans current))
      simpa [Gone, Tidy, same] using before

theorem kept_loses (kept : c.Kept c.link.port c.pending) (device : DeviceId) (loss : Loss) :
    (c.note (.lost device loss) []).Kept (c.link.lose device loss).port c.pending := by
  show Ledger.Kept ⟨c.opened, closes _ ++ c.closed, c.shut, c.fails _, c.disturbs _ ++ c.disturbed⟩
    _ _
  by_cases watched : device ∈ c.link.watched
  · have lost : (c.link.lose device loss).port =
        { c.link.port with opened := loss != .closed && c.link.opened, loss := some loss } := by
      cases loss <;> simp [Link.lose, watched, Link.port]
    rw [lost]
    refine kept.kept_with_news _ _ _ rfl rfl rfl (fun now => (Bool.and_eq_true_iff.mp now).2) ?_ ?_ ?_
    · intro other member
      simp only [disturbs] at member
      split at member
      · exact inUse?_eq_some.mp (Option.mem_toList.mp member)
      · cases member
    · simp [Port.isOpen]
    · intro other used _
      have now := inUse?_eq_some.mpr used
      by_cases own : loss = .closed ∧ other = device
      · obtain ⟨rfl, rfl⟩ := own
        exact .inr (.inl List.mem_cons_self)
      · have apart : loss ≠ .closed ∨ other ≠ device := Decidable.not_and_iff_not_or_not.mp own
        exact .inr (.inr (by simpa [disturbs, watched, now] using apart))
  · have same : c.link.lose device loss = c.link := by simp [Link.lose, watched]
    have calm : c.disturbs (.lost device loss) = [] := by simp [disturbs, watched]
    rw [same, calm]
    refine kept.kept_with_news _ _ _ rfl rfl rfl id ?_ (fun now => ⟨now, rfl⟩) ?_
    · intro _ member
      cases member
    · exact fun _ _ before => .inl before

/-- What a deed does leaves the ledger as it should be. -/
theorem kept_note {port : Port} {next : Option Input} (kept : c.Kept c.link.port c.pending)
    (deed : Deed c.link input (c.asked input) port effects next) :
    (c.note input effects).Kept port next := by
  have untold {ticket : Ticket} (asked : c.asked input = some (.connect ticket))
      (silent : input.call? = none) : c.pending = some (.connect ticket) := by
    simpa [Course.asked, silent] using asked
  cases deed with
  | keeps plain later quiet =>
    rw [note_of_quiet plain (shut?_of_quiet quiet)]
    exact { kept with
      opening := fun ticket asked => kept.opening ticket (untold asked (later ticket asked)) }
  | returns plain quiet asked named answered =>
    rw [note_of_quiet plain (by simp [shut?_of_quiet quiet, Effect.shut?])]
    exact { kept with opening := nofun }
  | makes plain asked shut =>
    rw [note_of_quiet plain rfl]
    refine kept.release ?_ ?_ ?_ (.inl shut) ?_
    · exact fun device opened => Nat.lt_succ_of_lt (kept.made device opened)
    · exact fun _ _ device opened => Nat.succ_lt_succ (kept.made device opened)
    · intro device _
      exact Bool.and_eq_false_iff.mpr (.inl shut)
    · intro device used
      -- The new device is not open yet, and the one before it is the link's no longer.
      cases used.1
      exact absurd (kept.made _ used.2.1) (Nat.lt_irrefl _)
  | opens asked told listed current last watched line =>
    subst told
    rw [untold asked rfl] at kept
    exact kept_opens kept listed current last watched _ rfl
  | @fails ticket device message asked told current last =>
    subst told
    have plain : Input.Plain c.link (.opened ticket device (some message)) := trivial
    rw [note_of_quiet plain rfl]
    refine kept.release kept.made nofun ?_ (.inr rfl) nofun
    intro other used
    have bound : other + 1 < c.link.made := kept.opening ticket (untold asked rfl) other used.2.1
    cases current.symm.trans used.1
    rw [last] at bound
    exact absurd bound (Nat.lt_irrefl _)
  | shuts plain asked current watched isOpen =>
    rw [note_of_plain plain, asked]
    exact kept_shuts kept current watched isOpen
  | drops plain asked subset released quiet =>
    rw [note_of_quiet plain (shut?_of_quiet quiet), asked]
    refine kept.release kept.made nofun ?_ (.inl rfl) nofun
    intro device used
    rcases released with lost | forgotten
    · exact lost
    · exact absurd used.2.2 (forgotten device used.1)
  | loses told =>
    subst told
    exact kept_loses kept _ _

end Course

theorem Reached.kept {config : Config} {c : Course} (reached : Reached config c) :
    c.Kept c.link.port c.pending := by
  induction reached with
  | start => exact ⟨nofun, nofun, nofun, nofun, nofun, nofun, nofun, nofun, nofun⟩
  | take reached input alone ih => exact Course.kept_note ih (reached.does alone)

theorem Deed.device_in_making {link : Link} {input : Input} {call next : Option Input} {port : Port}
    {effects : List Effect} (deed : Deed link input call port effects next) {ticket : Ticket}
    {device : DeviceId} (opens : Effect.openDevice ticket device ∈ effects) :
    input.Plain link ∧ port.device = some link.made := by
  cases deed with
  | makes plain asked shut => exact ⟨plain, rfl⟩
  | keeps plain later quiet => exact absurd (quiet _ opens) id
  | returns plain quiet asked named answered =>
    rcases List.mem_append.mp opens with early | last
    · exact absurd (quiet _ early) id
    · cases List.mem_singleton.mp last
  | drops plain asked subset released quiet => exact absurd (quiet _ opens) id
  | opens => simp at opens
  | fails => simp at opens
  | shuts => simp at opens
  | loses => cases opens

def Course.LetsGo (c : Course) (input : Input) : Prop :=
  (∃ ticket result, c.Returns input (.close ticket) result) ∨
    ∃ ticket device, Effect.openDevice ticket device ∈ (c.link.step input).2

/-- Nothing is in use when a call to close has returned, or when a new device is about to open. -/
theorem Reached.not_in_use_after {config : Config} {c : Course} (reached : Reached config c)
    {input : Input} (alone : c.Alone input) (letsGo : c.LetsGo input) (device : DeviceId) :
    ¬ (c.take input).InUse (c.take input).link.port device := by
  intro used
  rcases letsGo with ⟨ticket, result, returns⟩ | ⟨ticket, made, opens⟩
  · obtain ⟨_, ⟨same, answered⟩ | ⟨own, other, _⟩⟩ := reached.idle_after_return alone returns
    · have current : c.link.device = some device := (congrArg Port.device same).symm.trans used.1
      cases answered.1.symm.trans current
    · cases other
  · obtain ⟨plain, current⟩ := (reached.does alone).device_in_making opens
    cases current.symm.trans used.1
    have known : c.link.made ∈ c.opened := by
      have opened : c.link.made ∈ c.opens input ++ c.opened := used.2.1
      rw [Course.opens_of_plain plain] at opened
      exact opened
    exact absurd (reached.kept.made _ known) (Nat.lt_irrefl _)

/-- When a call to close has returned, and when a connect opens a new device, a device that opened
    before has told that it closed or was shut exactly when it has told that it closed or its use
    was never disturbed. -/
theorem opened_device_gone_iff {config : Config} {c : Course} (reached : Reached config c)
    {input : Input} (alone : c.Alone input) (letsGo : c.LetsGo input) {device : DeviceId}
    (opened : device ∈ (c.take input).opened) :
    (c.take input).Gone device ↔ (c.take input).Tidy device :=
  (reached.take input alone).kept.released device opened (reached.not_in_use_after alone letsGo device)

/-- A device that is closed while it is open is shut. -/
theorem closed_device_is_shut :
    let c := [.connect 0, .opened 0 0 none, .close 1, .turn, .shut].foldl Course.take
      (.start (.ofOptions (text "/dev/tty") 115200 none none none))
    c.Returns (.leave 1) (.close 1) (.ok .done) ∧ 0 ∈ (c.take (.leave 1)).opened ∧
      (c.take (.leave 1)).Tidy 0 ∧ (c.take (.leave 1)).Gone 0 := by
  intro c
  have reached : Reached (.ofOptions (text "/dev/tty") 115200 none none none) c :=
    .take (.take (.take (.take (.take .start (.connect 0) fun _ => rfl) (.opened 0 0 none) nofun)
      (.close 1) fun _ => rfl) .turn nofun) .shut nofun
  have alone : c.Alone (.leave 1) := nofun
  have returns : c.Returns (.leave 1) (.close 1) (.ok .done) := ⟨rfl, 1, rfl, .tail _ (.head _)⟩
  have opened : 0 ∈ (c.take (.leave 1)).opened := .head _
  have tidy : (c.take (.leave 1)).Tidy 0 := .inr List.not_mem_nil
  exact ⟨returns, opened, tidy,
    (opened_device_gone_iff reached alone (.inl ⟨1, _, returns⟩) opened).mpr tidy⟩

/-- A device that has failed is let go by a call to close that does not shut it. -/
theorem failed_device_is_left_open :
    let c := [.connect 0, .opened 0 0 none, .lost 0 (.failed (text "boom")), .close 1, .turn].foldl
      Course.take (.start (.ofOptions (text "/dev/tty") 115200 none none none))
    Reached (.ofOptions (text "/dev/tty") 115200 none none none) c ∧ c.Alone (.leave 1) ∧
      c.Returns (.leave 1) (.close 1) (.ok .done) ∧ 0 ∈ (c.take (.leave 1)).opened ∧
      0 ∉ (c.take (.leave 1)).closed ∧ 0 ∉ (c.take (.leave 1)).shut := by
  intro c
  have reached : Reached (.ofOptions (text "/dev/tty") 115200 none none none) c :=
    .take (.take (.take (.take (.take .start (.connect 0) fun _ => rfl) (.opened 0 0 none) nofun)
      (.lost 0 (.failed (text "boom"))) nofun) (.close 1) fun _ => rfl) .turn nofun
  exact ⟨reached, nofun, ⟨rfl, 1, rfl, .tail _ (.head _)⟩, .head _, List.not_mem_nil,
    List.not_mem_nil⟩

end VirtualInstrument.Serial
