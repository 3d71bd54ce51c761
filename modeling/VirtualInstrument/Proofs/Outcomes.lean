import VirtualInstrument.Time.Feed
/- What computations that can fail return. A property of what they return is put together from the
   properties of what their parts return. -/
namespace VirtualInstrument

def Returns {ε α : Type} (outcome : Except ε α) (property : α → Prop) : Prop :=
  ∀ a, outcome = .ok a → property a

def Gives {ε α : Type} (computation : ExceptT ε (StateM Sources) α) (property : α → Prop) : Prop :=
  ∀ sources, Returns (computation sources).1 property

section Calculus
variable {ε α β : Type} {first : α → Prop} {last : β → Prop}

theorem bind_ok {outcome : Except ε α} {next : α → Except ε β} {b : β}
    (whole : outcome >>= next = .ok b) : ∃ a, outcome = .ok a ∧ next a = .ok b := by
  cases outcome with
  | error fault => cases whole
  | ok a => exact ⟨a, rfl, whole⟩

theorem bind_error_iff {outcome : Except ε α} {next : α → Except ε β} {fault : ε} :
    outcome >>= next = .error fault ↔
      outcome = .error fault ∨ ∃ a, outcome = .ok a ∧ next a = .error fault := by
  cases outcome with
  | error cause => simp [bind, Except.bind]
  | ok a => simp [bind, Except.bind]

theorem ok_of_mapError {δ : Type} {result : Except ε α} {fault : ε → δ} {a : α}
    (returned : result.mapError fault = .ok a) : result = .ok a := by
  cases result with
  | error e => cases returned
  | ok b =>
    cases returned
    rfl

theorem returns_ok {a : α} (holds : first a) : Returns (.ok a : Except ε α) first := by
  intro b same
  cases same
  exact holds

theorem returns_error (fault : ε) : Returns (.error fault : Except ε α) first := by
  intro b same
  cases same

theorem returns_bind {outcome : Except ε α} {next : α → Except ε β} (start : Returns outcome first)
    (follows : ∀ a, first a → Returns (next a) last) : Returns (outcome >>= next) last := by
  intro b same
  cases outcome with
  | error fault => cases same
  | ok a => exact follows a (start a rfl) b same

theorem returns_any (outcome : Except ε α) : Returns outcome fun _ => True := fun _ _ => trivial

theorem gives_pure {a : α} (holds : first a) :
    Gives (pure a : ExceptT ε (StateM Sources) α) first := fun _ => returns_ok holds

theorem gives_same (a : α) : Gives (pure a : ExceptT ε (StateM Sources) α) (· = a) :=
  gives_pure rfl

theorem gives_throw (fault : ε) :
    Gives (throw fault : ExceptT ε (StateM Sources) α) first := fun _ => returns_error fault

theorem gives_lift {outcome : Except ε α} (yields : Returns outcome first) :
    Gives (liftM outcome : ExceptT ε (StateM Sources) α) first := fun _ => yields

theorem gives_any (computation : ExceptT ε (StateM Sources) α) :
    Gives computation fun _ => True := fun _ => returns_any _

theorem bind_run (computation : ExceptT ε (StateM Sources) α)
    (next : α → ExceptT ε (StateM Sources) β) (sources : Sources) :
    (computation >>= next) sources =
      match computation sources with
      | (.ok a, rest) => next a rest
      | (.error fault, rest) => (.error fault, rest) := by
  simp only [bind, ExceptT.bind, ExceptT.mk, StateT.bind, ExceptT.bindCont]
  cases run : computation sources with
  | mk outcome rest =>
    cases outcome with
    | error fault => rfl
    | ok a => rfl

theorem bind_fails_iff {computation : ExceptT ε (StateM Sources) α}
    {next : α → ExceptT ε (StateM Sources) β} {sources : Sources} {fault : ε} :
    ((computation >>= next) sources).1 = .error fault ↔
      (computation sources).1 = .error fault ∨
        ∃ a rest, computation sources = (.ok a, rest) ∧ (next a rest).1 = .error fault := by
  rw [bind_run]
  cases run : computation sources with
  | mk outcome rest =>
    cases outcome with
    | error cause =>
      constructor
      · rintro ⟨⟩
        exact .inl rfl
      · rintro (same | ⟨_, _, same, _⟩)
        · cases same
          rfl
        · cases same
    | ok a =>
      constructor
      · exact fun failed => .inr ⟨a, rest, rfl, failed⟩
      · rintro (same | ⟨_, _, same, failed⟩)
        · cases same
        · cases same
          exact failed

theorem bind_yields_iff {computation : ExceptT ε (StateM Sources) α}
    {next : α → ExceptT ε (StateM Sources) β} {sources last : Sources} {b : β} :
    (computation >>= next) sources = (.ok b, last) ↔
      ∃ a rest, computation sources = (.ok a, rest) ∧ next a rest = (.ok b, last) := by
  rw [bind_run]
  cases run : computation sources with
  | mk outcome rest =>
    cases outcome with
    | error fault =>
      constructor
      · rintro ⟨⟩
      · rintro ⟨_, _, ⟨⟩, _⟩
    | ok a =>
      constructor
      · exact fun yields => ⟨a, rest, rfl, yields⟩
      · rintro ⟨_, _, ⟨⟩, yields⟩
        exact yields

theorem lift_bind_yields_iff {outcome : Except ε α} {next : α → ExceptT ε (StateM Sources) β}
    {sources last : Sources} {b : β} :
    ((liftM outcome : ExceptT ε (StateM Sources) α) >>= next) sources = (.ok b, last) ↔
      ∃ a, outcome = .ok a ∧ next a sources = (.ok b, last) := by
  have lifted : (liftM outcome : ExceptT ε (StateM Sources) α) sources = (outcome, sources) := rfl
  rw [bind_yields_iff, lifted]
  constructor
  · rintro ⟨a, _, ⟨⟩, yields⟩
    exact ⟨a, rfl, yields⟩
  · rintro ⟨a, rfl, yields⟩
    exact ⟨a, sources, rfl, yields⟩

theorem lift_bind_fails_iff {outcome : Except ε α} {next : α → ExceptT ε (StateM Sources) β}
    {sources : Sources} {fault : ε} :
    (((liftM outcome : ExceptT ε (StateM Sources) α) >>= next) sources).1 = .error fault ↔
      outcome = .error fault ∨ ∃ a, outcome = .ok a ∧ (next a sources).1 = .error fault := by
  have lifted : (liftM outcome : ExceptT ε (StateM Sources) α) sources = (outcome, sources) := rfl
  rw [bind_fails_iff, lifted]
  constructor
  · rintro (failed | ⟨a, _, same, last⟩)
    · exact .inl failed
    · cases same
      exact .inr ⟨a, rfl, last⟩
  · rintro (failed | ⟨a, rfl, last⟩)
    · exact .inl failed
    · exact .inr ⟨a, sources, rfl, last⟩

theorem gives_bind {computation : ExceptT ε (StateM Sources) α}
    {next : α → ExceptT ε (StateM Sources) β} (start : Gives computation first)
    (follows : ∀ a, first a → Gives (next a) last) : Gives (computation >>= next) last := by
  intro sources b same
  have begins := start sources
  rw [bind_run] at same
  cases run : computation sources with
  | mk outcome rest =>
    rw [run] at same begins
    cases outcome with
    | error fault => cases same
    | ok a => exact follows a (begins a rfl) rest b same

end Calculus

end VirtualInstrument
