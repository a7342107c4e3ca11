import Slideshow.Text.Quoted

/-! # What can go wrong -/
namespace Slideshow

/-- Why a file cannot be read or written. -/
inductive FileFault
  | missing
  | exists
  | notDirectory
  | isDirectory
  | nameTooLong
  | noUtf8
  /-- The path names something, but no file. -/
  | noFile (path : Text)
  | other (text : Text)
  deriving DecidableEq, Repr

def FileFault.message : FileFault → Text
  | missing => "No such file or directory (os error 2)"
  | «exists» => "File exists (os error 17)"
  | notDirectory => "Not a directory (os error 20)"
  | isDirectory => "Is a directory (os error 21)"
  | nameTooLong => "File name too long (os error 36)"
  | noUtf8 => "stream did not contain valid UTF-8"
  | noFile path => "Path is not a file: " ++ Text.quoted path
  | other text => text

/-- Why a template gives no page. -/
inductive TemplateFault
  | parse
  | render
  | other (text : Text)
  deriving DecidableEq, Repr

def TemplateFault.message : TemplateFault → Text
  | parse => "Failed to parse 'deck'"
  | render => "Failed to render 'deck'"
  | other text => text

inductive Failure
  | read (fault : FileFault)
  | write (path : Text) (fault : FileFault)
  | pathNotFound (path : Text)
  | unsupportedFormat (extension : Text)
  | invalidExtension (text : Text)
  | duplicatePass (name : Text)
  | unknownEncoding (label : Text)
  /-- A message of the gravest kind was reported. -/
  | user (message : Text)
  | template (fault : TemplateFault)
  | configuration (text : Text)
  | unknown (text : Text)
  deriving DecidableEq, Repr

namespace Failure

def message : Failure → Text
  | read fault => "Failed to read file: " ++ fault.message
  | write path fault => "Failed to write file " ++ Text.quoted path ++ ": " ++ fault.message
  | pathNotFound path => "Path not found: " ++ path
  | unsupportedFormat extension => "Unsupported source format: " ++ extension
  | invalidExtension text => "Invalid extension: " ++ text
  | duplicatePass name => "Macro already registered: " ++ name
  | unknownEncoding label => "Unknown source encoding: " ++ label
  | user message => message
  | template fault => "Template error: " ++ fault.message
  | configuration text => "Configuration error: " ++ text
  | unknown text => "Unknown error: " ++ text

/-- Whether the file system is to blame. -/
def touchesFiles : Failure → Bool
  | read _ | write _ _ | pathNotFound _ => true
  | _ => false

end Failure

end Slideshow
