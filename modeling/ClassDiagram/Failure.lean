import ClassDiagram.Diagnostic
import ClassDiagram.Entity

/-!
# Failures

What can stop the work as a whole, with its wording. Problems that do not stop it are
diagnostics.
-/

namespace ClassDiagram

/-- Why a file that exists cannot be read. -/
inductive ReadFault
  | isDirectory
  | notText
deriving DecidableEq

def ReadFault.message : ReadFault → String
  | isDirectory => "Is a directory (os error 21)"
  | notText => "stream did not contain valid UTF-8"

inductive Failure
  | read (fault : ReadFault)
  | missingSettings (path : String)
  | malformedSettings
  | model (error : ModelError)
  | documentation (faults : List Diagnostic)
deriving DecidableEq

def Failure.message : Failure → String
  | read fault => "I/O error: " ++ fault.message
  | missingSettings path => "Missing configuration file: " ++ path
  | malformedSettings => "Failed to parse TOML configuration"
  | model error => "Model error: " ++ error.message
  | documentation faults => "Documentation error: " ++ Diagnostic.summary faults

end ClassDiagram
