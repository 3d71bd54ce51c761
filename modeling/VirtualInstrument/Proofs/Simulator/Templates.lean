import VirtualInstrument.Proofs.Dispatch.Filling
import VirtualInstrument.Proofs.Outcomes
import VirtualInstrument.Simulator.Basic
/- What the texts of a profile that are no expressions yield: the text filled with the captures of the
   command, whether it is an entry of its own, a value that is set or moved by, or a response. A text
   without placeholders takes another way than a template, and yields the same. -/
namespace VirtualInstrument.Simulator

open Dispatch Expression Profile

def IsFilling (captures : List Text) (template response : Text) : Prop :=
  ∀ filled, Filling captures template filled ↔ filled = response

theorem isFilling_substitute (captures : List Text) (t : Text) :
    IsFilling captures t (substitute t captures) := fun _ => filling_iff

theorem isFilling_self {t : Text} (none : hasPlaceholder t = false) (captures : List Text) :
    IsFilling captures t t := by
  have same : substitute t captures = t := substituteWithin_plain none t.length
  intro filled
  rw [filling_iff, same]

/-- A source that yields a text filled with the captures, whatever the state holds, and draws on
    nothing. -/
def Yields (t : Text) (source : Source Stored) : Prop :=
  ∀ scope sources, ∃ filled, sourceValue scope source sources = (.ok (.string filled), sources) ∧
    IsFilling scope.captures t filled

theorem stringSource_yields (t : Text) : Yields t (stringSource .string t) := by
  intro scope sources
  unfold stringSource
  split
  · exact ⟨_, rfl, isFilling_substitute scope.captures t⟩
  · rename_i none
    exact ⟨t, rfl, isFilling_self (Bool.not_eq_true _ ▸ none) scope.captures⟩

/-- A value under a key is handed to actions under this key, and yields itself filled when it is a text
    that is no expression. -/
structure Carries (declared : Text × Document) (stored : Text × Source Stored) : Prop where
  key : stored.1 = declared.1
  yields : ∀ t, declared.2 = .string t → ¬ IsDynamic t → Yields t stored.2

section Assignments
variable {place : Text} {declared : Fields Document} {compiled : List (Text × Source Document)}

theorem carries_loaded (compiles : compileAssignments place declared = .ok compiled) (heap : Heap) :
    List.Forall₂ Carries declared (loadAssignments heap compiled).2 := by
  induction declared generalizing compiled heap with
  | nil =>
    cases compiles
    exact .nil
  | cons assignment rest ih =>
    obtain ⟨key, value⟩ := assignment
    obtain ⟨source, one, others⟩ := bind_ok compiles
    obtain ⟨sources, further, whole⟩ := bind_ok others
    cases whole
    refine .cons ⟨rfl, ?_⟩ (ih further _)
    rintro t rfl static
    have same : Except.ok (stringSource .string t) = Except.ok source :=
      (compileString_static static _).symm.trans one
    cases same
    change Yields t (Source.load heap (stringSource .string t)).2
    rw [load_stringSource]
    exact stringSource_yields t

theorem compileAssignments_total
    (static : ∀ entry ∈ declared, ∀ t, entry.2 = .string t → ¬ IsDynamic t) (place : Text) :
    ∃ compiled, compileAssignments place declared = .ok compiled := by
  induction declared with
  | nil => exact ⟨[], rfl⟩
  | cons assignment rest ih =>
    obtain ⟨key, value⟩ := assignment
    obtain ⟨here, later⟩ := List.forall_mem_cons.mp static
    obtain ⟨sources, others⟩ := ih later
    obtain ⟨source, one⟩ : ∃ source, compileValue value (within place key) = .ok source := by
      cases value with
      | string t => exact ⟨_, compileString_static (here t rfl) _⟩
      | _ => exact ⟨_, rfl⟩
    refine ⟨(key, source) :: sources, ?_⟩
    rw [compileAssignments, one]
    simp only [bind, Except.bind, others]

end Assignments

structure Static (spec : ActionSpec) : Prop where
  values : ∀ entry ∈ spec.set.getD [] ++ spec.inc.getD [] ++ spec.dec.getD [],
    ∀ t, entry.2 = .string t → ¬ IsDynamic t
  response : ∀ t, spec.response = some t → ¬ IsDynamic t

section Entries
variable {spec : ActionSpec} {place : Text}

theorem compileActions_total (static : Static spec) (place : Text) :
    ∃ actions, compileActions spec place = .ok actions := by
  obtain ⟨changes, decs⟩ := List.forall_mem_append.mp static.values
  obtain ⟨sets, incs⟩ := List.forall_mem_append.mp changes
  obtain ⟨set, one⟩ := compileAssignments_total sets (within place (text "set"))
  obtain ⟨inc, two⟩ := compileAssignments_total incs (within place (text "inc"))
  obtain ⟨dec, three⟩ := compileAssignments_total decs (within place (text "dec"))
  unfold compileActions
  simp only [one, two, three, bind, Except.bind]
  cases response : spec.response with
  | none => exact ⟨_, rfl⟩
  | some t =>
    have four := compileString_static (static.response t response) (within place (text "response"))
    simp only [Option.mapM_some, four]
    exact ⟨_, rfl⟩

theorem actions_carry {declared : Actions Document}
    (compiles : compileActions spec place = .ok declared) (heap : Heap) :
    List.Forall₂ Carries (spec.set.getD []) (declared.load heap).2.set ∧
      List.Forall₂ Carries (spec.inc.getD []) (declared.load heap).2.inc ∧
      List.Forall₂ Carries (spec.dec.getD []) (declared.load heap).2.dec ∧
      (declared.load heap).2.get = spec.get ∧
      ∀ t, spec.response = some t → ¬ IsDynamic t →
        (declared.load heap).2.response = some (stringSource .string t) := by
  obtain ⟨set, one, later⟩ := bind_ok compiles
  obtain ⟨inc, two, later⟩ := bind_ok later
  obtain ⟨dec, three, later⟩ := bind_ok later
  obtain ⟨response, last, whole⟩ := bind_ok later
  cases whole
  unfold Actions.load
  dsimp only
  cases response with
  | none =>
    refine ⟨carries_loaded one _, carries_loaded two _, carries_loaded three _, rfl, ?_⟩
    intro t present static
    rw [present] at last
    obtain ⟨source, compiled, found⟩ := bind_ok last
    cases found
  | some source =>
    refine ⟨carries_loaded one _, carries_loaded two _, carries_loaded three _, rfl, ?_⟩
    intro t present static
    rw [present] at last
    obtain ⟨found, compiled, same⟩ := bind_ok last
    cases same
    have known := (compileString_static static _).symm.trans compiled
    cases known
    dsimp only
    rw [load_stringSource]

theorem execute_response {sim next : Simulator} {actions : Actions Stored} {captures : List Text}
    {source : Source Stored} {t : Text} (changed : sim.mutate actions captures = (.ok (), next))
    (no_key : actions.get = none) (responds : actions.response = some source)
    (yields : Yields t source) : ∃ response,
      sim.execute (.actions actions) captures = (.ok ⟨response, actions.delay⟩, next) ∧
        IsFilling captures t response := by
  obtain ⟨filled, value, filling⟩ := yields (scopeOf next.store captures) next.sources
  refine ⟨filled, ?_, filling⟩
  have drawn : next.respond actions captures = (.ok filled, next) := by
    rw [respond, no_key, responds]
    simp only [drawing, ExceptT.run, bind_run, value]
    rfl
  rw [execute, perform, changed]
  simp only [drawn]
  rfl

end Entries

/-- A text that is no expression is filled in one pass: each placeholder, with all its digits,
    becomes the capture of its number, or stays as it is written; what a capture holds is not read
    again. As an entry it is always compiled and changes nothing. -/
theorem static_texts_are_filled_in_one_pass :
    (∀ t place heap, ¬ IsDynamic t → ∃ entry, compileEntry (.plain t) place = .ok entry ∧
      ∀ (sim : Simulator) captures, ∃ response,
        sim.execute (entry.load heap).2 captures = (.ok ⟨response, 0⟩, sim) ∧
          IsFilling captures t response) ∧
    ∀ spec place heap,
      (Static spec → ∃ entry, compileEntry (.actions spec) place = .ok entry) ∧
      ∀ entry, compileEntry (.actions spec) place = .ok entry → ∃ actions,
        (entry.load heap).2 = .actions actions ∧
          List.Forall₂ Carries (spec.set.getD []) actions.set ∧
          List.Forall₂ Carries (spec.inc.getD []) actions.inc ∧
          List.Forall₂ Carries (spec.dec.getD []) actions.dec ∧
          ∀ t, spec.get = none → spec.response = some t → ¬ IsDynamic t →
            ∀ (sim : Simulator) captures next, sim.mutate actions captures = (.ok (), next) →
              ∃ response,
                sim.execute (.actions actions) captures = (.ok ⟨response, actions.delay⟩, next) ∧
                  IsFilling captures t response := by
  refine ⟨fun t place heap static => ?_, fun spec place heap => ⟨fun static => ?_, ?_⟩⟩
  · rw [compileEntry, compileString_static static]
    unfold stringSource
    split
    · exact ⟨_, rfl, fun sim captures => ⟨_, rfl, isFilling_substitute captures t⟩⟩
    · rename_i none
      refine ⟨_, rfl, fun sim captures => ⟨t, rfl, ?_⟩⟩
      exact isFilling_self (Bool.not_eq_true _ ▸ none) captures
  · obtain ⟨actions, compiles⟩ := compileActions_total static place
    exact ⟨.actions actions, by rw [compileEntry, compiles]; rfl⟩
  · intro entry compiled
    cases compiles : compileActions spec place with
    | error cause =>
      rw [compileEntry, compiles] at compiled
      cases compiled
    | ok declared =>
      rw [compileEntry, compiles] at compiled
      cases compiled
      obtain ⟨sets, incs, decs, get, responds⟩ := actions_carry compiles heap
      refine ⟨(declared.load heap).2, rfl, sets, incs, decs, ?_⟩
      intro t no_key present static sim captures next changed
      exact execute_response changed (get.trans no_key) (responds t present static)
        (stringSource_yields t)

def echoSpec : ActionSpec :=
  ⟨none, some [(text "shown", .string (text "<$1>"))], some [(text "count", .string (text "$2"))], none,
    none, some (text "$1$02$2$3$0")⟩

def echoSimulator : Simulator :=
  ⟨text "ECHO", [], text "echo.json", false, false, .empty, .create .empty [], .empty, 0,
    ⟨.constant 0, .constant 0⟩⟩

/-- The first capture reads like a placeholder, and is put in as it is. -/
theorem capture_with_dollar_sign_is_not_read_again :
    let captures := [text "$2", text "5"]
    (¬ IsDynamic (text "$1$02$2$3$0") ∧ ∃ entry,
      compileEntry (.plain (text "$1$02$2$3$0")) (text "k") = .ok entry ∧
        (echoSimulator.execute (entry.load .empty).2 captures).1 =
          .ok ⟨text "$255$3$0", 0⟩) ∧
    ∃ entry actions next, compileEntry (.actions echoSpec) (text "k") = .ok entry ∧
      (entry.load .empty).2 = .actions actions ∧
      echoSimulator.mutate actions captures = (.ok (), next) ∧
      List.Forall₂ Carries [(text "shown", .string (text "<$1>"))] actions.set ∧
      (next.store.get? (text "shown")).bind next.store.heap.unload? =
        some (.string (text "<$2>")) ∧
      echoSimulator.execute (.actions actions) captures = (.ok ⟨text "$255$3$0", 0⟩, next) := by
  have static : ¬ IsDynamic (text "$1$02$2$3$0") := by decide
  have filled : substitute (text "$1$02$2$3$0") [text "$2", text "5"] = text "$255$3$0" := by decide
  have only {response : Text} (filling :
      IsFilling [text "$2", text "5"] (text "$1$02$2$3$0") response) : response = text "$255$3$0" :=
    ((filling _).mp (filling_iff.mpr rfl)).symm.trans filled
  refine ⟨⟨static, ?_⟩, ?_⟩
  · obtain ⟨entry, compiled, answers⟩ :=
      static_texts_are_filled_in_one_pass.1 (text "$1$02$2$3$0") (text "k") .empty static
    obtain ⟨response, executed, filling⟩ := answers echoSimulator [text "$2", text "5"]
    refine ⟨entry, compiled, ?_⟩
    rw [executed, only filling]
  · obtain ⟨entry, compiled⟩ : ∃ entry, compileEntry (.actions echoSpec) (text "k") = .ok entry :=
      ⟨_, rfl⟩
    obtain ⟨actions, loaded, sets, _, _, responds⟩ :=
      (static_texts_are_filled_in_one_pass.2 echoSpec (text "k") .empty).2 entry compiled
    obtain ⟨next, changed, shown⟩ : ∃ next,
        echoSimulator.mutate actions [text "$2", text "5"] = (.ok (), next) ∧
          (next.store.get? (text "shown")).bind next.store.heap.unload? =
            some (.string (text "<$2>")) := by
      cases compiled
      cases loaded
      exact ⟨_, Prod.ext (by decide +kernel) rfl, by decide +kernel⟩
    obtain ⟨response, executed, filling⟩ := responds (text "$1$02$2$3$0") rfl rfl static
      echoSimulator [text "$2", text "5"] next changed
    refine ⟨entry, actions, next, compiled, loaded, changed, sets, shown, ?_⟩
    rw [executed, only filling]
    cases compiled
    cases loaded
    rfl

end VirtualInstrument.Simulator
