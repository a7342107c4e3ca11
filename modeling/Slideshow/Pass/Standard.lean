import Slideshow.Settings
import Slideshow.Pass.Code
import Slideshow.Pass.Directive
import Slideshow.Pass.Image

/-! # The standard passes -/
namespace Slideshow

/-- The names of the standard passes, in the order in which they run by default. -/
def Pass.standardNames : List Text :=
  ["code", "embed_images", "fix_image_paths", "fx", "notes", "qr"]

/-- The standard pass of a name. -/
def Pass.standard? (settings : Settings) (name : Text) : Option Pass :=
  let passes := [Pass.code, Pass.embedImages settings.embed,
    Pass.linkImages (settings.embed || settings.relative), Pass.effects, Pass.notes, Pass.qrCodes]
  passes.find? (·.name = name)

namespace Pipeline

def registerNamed (settings : Settings) (p : Pipeline) (name : Text) : Except Failure Pipeline :=
  match Pass.standard? settings name with
  | none => .error (.invalidExtension ("'" ++ name ++ "' is not a known macro"))
  | some pass => p.register pass

def ofNames (settings : Settings) (names : List Text) : Except Failure Pipeline :=
  names.foldlM (registerNamed settings) empty

/-- All standard passes. -/
def standard (settings : Settings) : Pipeline :=
  ⟨Pass.standardNames.filterMap (Pass.standard? settings)⟩

/-- The passes that the settings name. -/
def ofSettings (settings : Settings) : Except Failure Pipeline :=
  match settings.passes with
  | some names => ofNames settings names
  | none => .ok (standard settings)

end Pipeline

end Slideshow
