import VirtualInstrument.Proofs.Decimal.Difference
import VirtualInstrument.Proofs.Recorder.Fidelity
import VirtualInstrument.Proofs.Session.Saving
/- When a recording that was saved can be loaded. The times of its log are read off a clock, and a
   clock can step back behind the reading that the recording started with. -/
namespace VirtualInstrument
open Instrument

namespace Recorder

variable {σ ε : Type} [Instrument σ ε]

def clock (recorder : Recorder σ) : Feed Float := recorder.stopwatch.getD recorder.wall

/-- The reading that a recording starts with. -/
def startOf (clock : Feed Float) : Float := clock.nth clock.used

def readings (clock : Feed Float) (entries : Nat) : List Float :=
  (List.range entries).map fun i => clock.nth (clock.used + (i + 1))

def timeOf (start reading : Float) : Float := (reading - start) / 1000

/-- A reading is not before the start, and not further after it than a double can tell. The zero
    with a minus counts as before the zero without. -/
def Follows (start reading : Float) : Prop :=
  (start ≤ reading ∧ ¬ (reading = -0.0 ∧ start = 0.0)) ∧ ∃ d, classify (reading - start) = .finite d

theorem timeOf_lasting {start reading : Float} (first : ∃ d, classify start = .finite d)
    (next : ∃ d, classify reading = .finite d) :
    Lasting (timeOf start reading) ↔ Follows start reading := by
  obtain ⟨d, first⟩ := first
  obtain ⟨e, next⟩ := next
  unfold Lasting Timely Follows timeOf
  rw [and_right_comm, thousandth_finite_iff]
  refine and_congr_left ?_
  rintro ⟨difference, last⟩
  rw [thousandth_unsigned last, sub_unsigned next first last]

/-- The recorder was started at the first reading of a clock and has timed its log by it since. -/
structure Timed (clock : Feed Float) (recorder : Recorder σ) : Prop where
  start : recorder.startedAt = startOf clock
  ahead : recorder.clock = { clock with used := clock.used + (recorder.log.length + 1) }
  log : recorder.log.map (·.timestamp) =
    (readings clock recorder.log.length).map (timeOf (startOf clock))

theorem readClock_reads (recorder : Recorder σ) :
    recorder.readClock.1 = recorder.clock.next.1 ∧
      recorder.readClock.2.clock = recorder.clock.next.2 ∧
        recorder.readClock.2.startedAt = recorder.startedAt := by
  obtain ⟨inner, startedAt, log, stopwatch, wall⟩ := recorder
  cases stopwatch with
  | none => exact ⟨rfl, rfl, rfl⟩
  | some watch => exact ⟨rfl, rfl, rfl⟩

theorem start_timed (inner : σ) (stopwatch : Option (Feed Float)) (wall : Feed Float) :
    Timed (stopwatch.getD wall) (start inner stopwatch wall) := by
  cases stopwatch with
  | none => exact ⟨rfl, rfl, rfl⟩
  | some watch => exact ⟨rfl, rfl, rfl⟩

theorem Timed.record {clock : Feed Float} {recorder : Recorder σ} (timed : Timed clock recorder)
    (kind : Kind) (command : Text) (response : Response) :
    Timed clock (recorder.record kind command response) := by
  obtain ⟨reading, later, start⟩ := readClock_reads recorder
  obtain ⟨-, log⟩ := readClock_keeps recorder
  have next : recorder.clock.next.1 = clock.nth (clock.used + (recorder.log.length + 1)) := by
    rw [timed.ahead]
    rfl
  have grown : (recorder.record kind command response).log = recorder.log ++
      [⟨kind, Text.trim command, response.text?,
        (recorder.readClock.1 - recorder.startedAt) / 1000⟩] := by
    simp only [Recorder.record, log]
  refine ⟨start.trans timed.start, ?_, ?_⟩
  · rw [grown, List.length_append]
    refine later.trans ?_
    rw [timed.ahead]
    rfl
  · rw [grown, List.map_append, List.length_append, timed.log, reading, next, timed.start]
    simp only [readings, timeOf, List.length_singleton, List.range_succ, List.map_append,
      List.map_singleton]

theorem Timed.after_turns {clock : Feed Float} {recorder : Recorder σ} (timed : Timed clock recorder)
    (turns : List (Turn σ)) : Timed clock (converse recorder (turns.map around)).2 := by
  induction turns generalizing recorder with
  | nil => exact timed
  | cons turn rest ih =>
    cases turn with
    | outside change => exact ih ⟨timed.start, timed.ahead, timed.log⟩
    | send call =>
      refine ih ?_
      show Timed clock (recorder.exchange call.kind call.command call.delay).next
      have unchanged (inner : σ) : Timed clock { recorder with inner } :=
        ⟨timed.start, timed.ahead, timed.log⟩
      unfold Recorder.exchange
      dsimp only
      split
      · exact (unchanged _).record _ _ _
      · exact unchanged _

def saving (recorder : Recorder σ) (name profile : Text) (unreserved : name ≠ Fields.reservedName) :
    Session.Saving where
  name
  record := ⟨profile, recorder.log⟩
  entries := recorder.log.map (·.recorded)
  unreserved
  tells := by
    rw [List.forall₂_map_left_iff, List.forall₂_same]
    intro entry _
    exact entry.tells_recorded

/-- A recording that was saved is loaded with its whole log exactly when the clock has not stepped
    back behind the reading that the recording started with, and no record of another name has a
    time that is refused. -/
theorem saved_recording_loads_iff (inner : σ) (turns : List (Turn σ))
    (stopwatch : Option (Feed Float)) (wall : Feed Float) {disk : Disk} {path name profile : Text}
    {session : Session} (held : Session.existing disk path = .ok session)
    (unreserved : name ≠ Fields.reservedName)
    (finite : ∀ i, ∃ d, classify ((stopwatch.getD wall).nth i) = .finite d) :
    let recorder := (converse (start inner stopwatch wall) (turns.map around)).2
    (recorder.save disk path name profile).1 = .ok () →
      (Session.loadRecord (recorder.save disk path name profile).2.2.1 path name =
          .ok ⟨profile, recorder.log⟩ ↔
        (∀ reading ∈ readings (stopwatch.getD wall) recorder.log.length,
          Follows (startOf (stopwatch.getD wall)) reading) ∧
        ∀ other record, other ≠ name → session.get? other = some record →
          record.Times Timely) := by
  intro recorder saved
  have timed : Timed (stopwatch.getD wall) recorder :=
    (start_timed inner stopwatch wall).after_turns turns
  have own : (SessionRecord.mk profile recorder.log).Times Lasting ↔
      ∀ reading ∈ readings (stopwatch.getD wall) recorder.log.length,
        Follows (startOf (stopwatch.getD wall)) reading := by
    have logged : (SessionRecord.mk profile recorder.log).Times Lasting ↔
        ∀ time ∈ recorder.log.map (·.timestamp), Lasting time := List.forall_mem_map.symm
    rw [logged, timed.log, List.forall_mem_map]
    refine forall₂_congr fun reading member => timeOf_lasting (finite _) ?_
    obtain ⟨i, -, rfl⟩ := List.mem_map.mp member
    exact finite _
  have loads : Session.loadRecord _ path name = .ok ⟨profile, recorder.log⟩ ↔ _ :=
    Session.loadRecord_after_save (recorder.saving name profile unreserved) held saved
  have all := Session.times_into (recorder.saving name profile unreserved)
    (Session.existing_proper held) Timely
  refine loads.trans ?_
  rw [all, ← own, SessionRecord.times_lasting]
  exact and_right_comm

def askedOnce : List (Turn Equipment) := [.send ⟨.query, text "V?", none⟩]

def asked (clock : List Float) : Recorder Equipment :=
  (converse (start sessionOfOneQuery (some (.cycle 0 clock)) (.constant 0))
    (askedOnce.map around)).2

theorem forward_clock_recording_loads :
    let outcome := (asked [4000, 5000]).save Disk.empty (text "/s.json") (text "n") (text "p")
    Session.loadRecord outcome.2.2.1 (text "/s.json") (text "n") =
      .ok ⟨text "p", [⟨.query, text "V?", some (text "5"), 1⟩]⟩ := by
  have held : Session.existing Disk.empty (text "/s.json") = .ok [] := by decide +kernel
  have log : (asked [4000, 5000]).log = [⟨.query, text "V?", some (text "5"), 1⟩] := by
    decide +kernel
  have saved : ((asked [4000, 5000]).save Disk.empty (text "/s.json") (text "n") (text "p")).1 =
      .ok () := by decide +kernel
  have finite (i : Nat) : ∃ d, classify ((Feed.cycle 0 [4000, 5000]).nth i) = .finite d := by
    show ∃ d, classify ([4000, 5000].getD (i % 2) 0) = .finite d
    rcases Nat.mod_two_eq_zero_or_one i with even | odd
    · rw [even]
      exact ⟨⟨false, 8796093022208000, -41⟩, by decide⟩
    · rw [odd]
      exact ⟨⟨false, 5497558138880000, -40⟩, by decide⟩
  have loads := saved_recording_loads_iff sessionOfOneQuery askedOnce (some (.cycle 0 [4000, 5000]))
    (.constant 0) held (by decide) finite saved
  rw [← log]
  have reading : readings (.cycle 0 [4000, 5000]) (asked [4000, 5000]).log.length = [5000] := by
    decide +kernel
  refine loads.mpr ⟨?_, ?_⟩
  · intro later member
    have one : later ∈ [5000] := reading ▸ member
    rw [List.mem_singleton.mp one]
    exact ⟨⟨by decide, by decide⟩, ⟨false, 8796093022208000, -43⟩, by decide⟩
  · intro other record _ found
    cases found

/-- A clock that steps back by a second between the start and the only query. The entry is timed
    before the start, which the form refuses. -/
theorem backward_clock_recording_is_lost :
    let outcome := (asked [5000, 4000]).save Disk.empty (text "/s.json") (text "n") (text "p")
    outcome.1 = .ok () ∧ Session.loadRecord outcome.2.2.1 (text "/s.json") (text "n") ≠
      .ok ⟨text "p", (asked [5000, 4000]).log⟩ := by
  refine ⟨?_, ?_⟩
  · decide +kernel
  · decide +kernel

end Recorder

end VirtualInstrument
