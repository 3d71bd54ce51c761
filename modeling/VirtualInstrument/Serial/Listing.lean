import VirtualInstrument.Document.Basic
/- The serial devices of a computer. What the hardware reports about a device is cut down to its path
   and, where it is known, its manufacturer. -/
namespace VirtualInstrument.Serial

def listedNames : List Text := [text "path", text "manufacturer"]

def listDevice (reported : Fields Document) : Fields Document :=
  listedNames.filterMap fun name => (reported.get? name).map fun value => (name, value)

def listDevices (reported : List (Fields Document)) : List (Fields Document) :=
  reported.map listDevice

end VirtualInstrument.Serial
