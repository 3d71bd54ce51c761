import VirtualInstrument.Profile.File
import VirtualInstrument.Simulator.Basic
/- Setting up a simulation. What its options leave open comes from the profile, from the
   settings, or from the name of the profile's file. -/
namespace VirtualInstrument.Simulator

structure Options where
  profile : Option Profile
  /-- The file of the profile; with a profile it only names it. -/
  path : Option Text
  model : Option Text
  timeout : Option Float
  overrides : Option Text
  packaged : Option Text
  strict : Option Bool
  debug : Option Bool

def inlineSource : Text := text "<inline profile>"

def Options.file? (options : Options) : Option Text := options.path.filter (!·.isEmpty)

def Options.roots (options : Options) (settings : Settings) : ProfileRoots :=
  ⟨options.packaged.getD settings.roots.packaged, options.overrides.getD settings.roots.overrides⟩

def Options.load (options : Options) (disk : Disk) (settings : Settings) :
    Except ProfileFault (Profile × Text) × List Event :=
  match options.profile, options.file? with
  | some profile, _ => (.ok (profile, options.path.getD inlineSource), [])
  | none, some path =>
    let (loaded, events) := Profile.loadWithOverride disk path (options.roots settings)
    (loaded.map fun profile => (profile, path), events)
  | none, none => (.error ⟨inlineSource, .nothingGiven⟩, [])

def Options.modelOf (options : Options) (profile : Profile) : Text :=
  (options.model.or profile.model).getD
    ((options.file?.map fun path => Path.stem (Path.name path)).getD (text "SIM"))

def identificationOf (profile : Profile) (model : Text) : Text :=
  profile.identification.getD (text "Simulated,BenchSim," ++ model ++ text "-SIM,1.0")

def start (options : Options) (settings : Settings) (profile : Profile) (source : Text)
    (table : Dispatch.Table Document) (sources : Sources) : Simulator :=
  let (heap, loaded) := table.load Heap.empty
  let model := options.modelOf profile
  { model
    identification := identificationOf profile model
    source
    strict := options.strict.getD settings.strictUnknownCommands
    debug := options.debug.getD settings.debug
    table := loaded
    store := Store.create heap profile.simulation.initialState
    queue := .empty
    timeout := options.timeout.getD settings.timeout
    sources }

def create (disk : Disk) (settings : Settings) (options : Options) (sources : Sources) :
    Except ProfileFault Simulator × List Event :=
  match options.load disk settings with
  | (.error fault, events) => (.error fault, events)
  | (.ok (profile, source), events) =>
    match Dispatch.Table.build profile.simulation with
    | .error cause => (.error ⟨source, cause⟩, events)
    | .ok table =>
      let sim := start options settings profile source table sources
      (.ok sim, events ++
        [.log (text "[SimBackend] Loaded " ++ sim.model ++ text " from " ++ source)])

end VirtualInstrument.Simulator
