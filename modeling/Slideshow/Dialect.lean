import Slideshow.Failure
import Slideshow.Store.Path
import Slideshow.Text.Case

/-! # Dialects of markup -/
namespace Slideshow

inductive Dialect
  | markdown
  | restructuredText
  deriving DecidableEq, Repr

namespace Dialect

def name : Dialect → Text
  | markdown => "markdown"
  | restructuredText => "restructuredtext"

/-- The dialect of files with an extension, given with its dot and in any case. -/
def ofExtension (extension : Text) : Except Failure Dialect :=
  let small := Text.lower extension
  if small = (".md" : Text) ∨ small = (".markdown" : Text) then .ok markdown
  else if small = (".rst" : Text) then .ok restructuredText
  else .error (.unsupportedFormat extension)

def ofPath (path : Text) : Except Failure Dialect :=
  ofExtension (((Path.extension? path).map ('.' :: ·)).getD [])

end Dialect

end Slideshow
