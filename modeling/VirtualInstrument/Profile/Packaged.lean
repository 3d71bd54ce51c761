import VirtualInstrument.Document.Writer
import VirtualInstrument.Files.Disk
/- The profiles that come with the library: a power supply and a multimeter. -/
namespace VirtualInstrument.Profile.Packaged

def map (entries : List (String × Document)) : Document :=
  .map (entries.map fun (name, value) => (text name, value))

def str (s : String) : Document := .string (text s)

def getting (key : String) : Document := map [("get", str key)]

def setting (key value : String) : Document := map [("set", map [(key, str value)])]

def outOfRange (pattern condition : String) : Document :=
  map [("pattern", str pattern), ("condition", str condition), ("code", .number (-222)),
    ("message", str "Data out of range")]

def powerSupply : Document :=
  map [("model", str "PSU-3005"),
    ("identification", str "ACME,PSU-3005,SIM0001,1.2.0"),
    ("simulation", map [
      ("initial_state", map [("voltage", str "0.0"), ("current", str "1.0"),
        ("output", str "OFF"),
        ("limits", map [("voltage", .number 30), ("current", .number 5)]),
        ("ocp_trips", .number 0)]),
      ("scpi", map [
        (":VOLT $1", setting "voltage" "$1"),
        (":VOLT?", getting "voltage"),
        (":CURR $1", setting "current" "$1"),
        (":CURR?", getting "current"),
        (":OUTP $1", map [("set", map [("output", str "$1")]), ("delay", .number 0.05)]),
        (":OUTP?", getting "output"),
        (":MEAS:VOLT?", str ("expr: state.output == 'ON' ? " ++
          "round(float(state.voltage) * random.uniform(0.999, 1.001), 4) : 0.0")),
        (":MEAS:CURR?", str "expr: 0.0"),
        (":SYST:OCP:TRIP", map [("inc", map [("ocp_trips", .number 1)])]),
        (":SYST:OCP:COUNT?", getting "ocp_trips")]),
      ("errors", .list [
        outOfRange ":VOLT (.+)" "g1 > state.limits.voltage or g1 < 0",
        outOfRange ":CURR (.+)" "g1 > state.limits.current or g1 < 0"])])]

def reading : String := "expr: round(random.uniform(4.995, 5.005), 4)"

def multimeter : Document :=
  map [("model", str "DMM-6500"),
    ("simulation", map [
      ("initial_state", map [("function", str "VOLT:DC"),
        ("range", map [("VOLT:DC", .number 10), ("CURR:DC", .number 1)]),
        ("trigger", map [("count", .number 1)]),
        ("readings", .number 0)]),
      ("scpi", map [
        ("*IDN?", str "ACME,DMM-6500,SIM0002,2.0.1"),
        (":CONF:*", setting "function" "$1"),
        (":FUNC?", getting "function"),
        (":TRIG:COUN $1", setting "trigger.count" "expr: int(g1)"),
        (":TRIG:COUN?", getting "trigger.count"),
        (":READ?", map [("inc", map [("readings", .number 1)]), ("response", str reading),
          ("delay", .number 0.1)]),
        (":READ:COUN?", getting "readings"),
        ("re::SENS:VOLT:DC:RANG (.+)", setting "range.VOLT:DC" "$1"),
        (":SENS:VOLT:DC:RANG?", getting "range.VOLT:DC"),
        ("MEAS:*?", str reading)]),
      ("errors", .list [outOfRange ":TRIG:COUN (.+)" "g1 < 1 or g1 > 10000"])])]

def maker : FileName := Text.toUtf8 (text "acme")

def files : List (FileName × Document) :=
  [(Text.toUtf8 (text "psu.json"), powerSupply), (Text.toUtf8 (text "dmm.json"), multimeter)]

def install (disk : Disk) (root : Place) : Disk :=
  let folder := root ++ [maker]
  files.foldl
    (fun d file => d.put (folder ++ [file.1]) (.file (Text.toUtf8 file.2.compact)))
    ((disk.put root .directory).put folder .directory)

end VirtualInstrument.Profile.Packaged
