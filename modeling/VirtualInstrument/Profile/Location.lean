import VirtualInstrument.Files.Path
import VirtualInstrument.Settings
/- Where profiles are. A key such as `acme/psu` names a packaged profile; the user's changes to
   a packaged profile have the same relative path under a directory of their own. -/
namespace VirtualInstrument.Profile

def extension : Text := text ".json"

def hasExtension (t : Text) : Bool := extension.isSuffixOf t

def keyPath (key packaged : Text) : Text :=
  let file := if hasExtension key then key else key ++ extension
  Path.joined (packaged :: Text.split Path.slash file)

/-- The path of a profile that is given by its key, or by a path that is absolute or has the
    extension. -/
def locate (given packaged : Text) : Text :=
  if Path.isAbsolute given || hasExtension given then Path.absolute given
  else keyPath given packaged

/-- The path of the user's changes to a profile; none when the profile is not below the packaged
    ones, and none when its relative path begins with two points. -/
def overridePath? (path : Text) (roots : ProfileRoots) : Option Text :=
  let relative := Path.relative roots.packaged path
  if relative.isEmpty || Path.parent.isPrefixOf relative then none
  else some (Path.joined [roots.overrides, relative])

end VirtualInstrument.Profile
