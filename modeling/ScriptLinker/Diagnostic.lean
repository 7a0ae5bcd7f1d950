/-!
# Compile diagnostics

A front end hands back a message and no location, so a diagnostic made from one
stands at a placeholder: no file name, line 1, column 0. The host turns a
diagnostic into an exception; which one, and under which code, follows from its
error number.
-/

namespace ScriptLinker

/-- The errors the host's reporter knows by number. -/
inductive ErrorNumber where
  /-- The front end rejected the source text. -/
  | frontEndRejection
  deriving DecidableEq, Inhabited

def ErrorNumber.code : ErrorNumber → String
  | .frontEndRejection => "STENCIL-001"

/-- The class of exception the host raises. -/
def ErrorNumber.exceptionName : ErrorNumber → String
  | .frontEndRejection => "SyntaxError"

inductive Severity where
  | advice
  | warning
  | error
  deriving DecidableEq, Inhabited

/-- A compile error for the host's reporter. `muted` sources must not show
details to the page. -/
structure Diagnostic where
  filename : Option String
  line : Nat
  column : Nat
  muted : Bool
  message : String
  number : ErrorNumber
  deriving DecidableEq, Inhabited

namespace Diagnostic

/-- The diagnostic of a front end's message, at the placeholder location. -/
def ofMessage (message : String) : Diagnostic where
  filename := none
  line := 1
  column := 0
  muted := false
  message := message
  number := .frontEndRejection

@[simp] theorem message_ofMessage (message : String) : (ofMessage message).message = message := rfl

def displayFilename (diagnostic : Diagnostic) : String :=
  diagnostic.filename.getD "<unknown>"

/-- The place to show: file, line and column. -/
def location (diagnostic : Diagnostic) : String :=
  diagnostic.displayFilename ++ ":" ++ toString diagnostic.line ++ ":" ++ toString diagnostic.column

def help (diagnostic : Diagnostic) : String :=
  diagnostic.number.exceptionName ++ " at " ++ diagnostic.location

/-- Every compile diagnostic is an error. -/
def severity (_ : Diagnostic) : Severity :=
  .error

/-- The line a report leaves in the log. -/
def logLine (diagnostic : Diagnostic) : String :=
  diagnostic.number.exceptionName ++ " [" ++ diagnostic.number.code ++ "] " ++
    diagnostic.location ++ ": " ++ diagnostic.message

end Diagnostic

end ScriptLinker
