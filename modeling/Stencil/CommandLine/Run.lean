import Stencil.CommandLine.Arguments
import Stencil.Session

/-!
# Running the command

The command renders one template with the bindings of its arguments.  It
writes what was rendered even when the rendering failed, and tells by its exit
code whether the rendering succeeded (0), failed (1), or never began (2).
-/

namespace Stencil.CommandLine

structure Exit where
  code : Nat
  stdout : String
  stderr : String
  deriving DecidableEq, Repr

/-! ## Sources -/

inductive Source where
  | standardInput
  | file (path : String)
  deriving DecidableEq, Repr

/-- Without a template, and with a hyphen for it, standard input is read. -/
def Invocation.source (invocation : Invocation) : Source :=
  match invocation.template with
  | none | some "-" => .standardInput
  | some path => .file path

def Source.label : Source → String
  | .standardInput => "<stdin>"
  | .file path => path

inductive ReadFailure where
  | system (reason : String) (code : Nat)
  | notUtf8
  deriving DecidableEq, Repr

namespace ReadFailure

def notFound : ReadFailure := .system "No such file or directory" 2

def permissionDenied : ReadFailure := .system "Permission denied" 13

def notDirectory : ReadFailure := .system "Not a directory" 20

def isDirectory : ReadFailure := .system "Is a directory" 21

def nameTooLong : ReadFailure := .system "File name too long" 36

/-- The usual failures have their own wording, whatever reason came with the code. -/
def ofCode (code : Nat) (reason : String) : ReadFailure :=
  match code with
  | 2 => notFound
  | 13 => permissionDenied
  | 20 => notDirectory
  | 21 => isDirectory
  | 36 => nameTooLong
  | code => .system reason code

def message : ReadFailure → String
  | .system reason code => reason ++ " (os error " ++ toString code ++ ")"
  | .notUtf8 => "stream did not contain valid UTF-8"

end ReadFailure

/-! ## Texts -/

def versionText : String := "yate 0.1.0\n"

def helpLines : List String :=
  ["Render a template with values and arrays bound from the command line",
    "",
    "Usage: yate [OPTIONS] [TEMPLATE]",
    "",
    "Arguments:",
    "  [TEMPLATE]  Template file; reads stdin when omitted or `-`",
    "",
    "Options:",
    "  -v, --var <NAME=VALUE>    Bind a printable value",
    "  -a, --array <NAME=A,B,C>  Bind an array; elements are comma separated, empty for none",
    "  -h, --help                Print help",
    "  -V, --version             Print version",
    "",
    "Examples:",
    "  yate page.tpl --var title=Home --array items=a,b,c",
    "  echo 'Hello \x7b\x7bname\x7d\x7d' | yate --var name=World"]

def helpText : String := String.join (helpLines.map (· ++ "\n"))

/-! ## Exits -/

namespace Exit

def ofUsageError (error : UsageError) : Exit := ⟨2, "", error.report.shown⟩

/-- A source that cannot be read is named as the argument named it. -/
def ofReadFailure (invocation : Invocation) (failure : ReadFailure) : Exit :=
  ⟨2, "", invocation.template.getD "<stdin>" ++ ": " ++ failure.message ++ "\n"⟩

def ofOutcome (source : Source) (outcome : Outcome) : Exit :=
  match outcome.result with
  | .ok _ => ⟨0, outcome.sink.text, ""⟩
  | .error error => ⟨1, outcome.sink.text, source.label ++ ": " ++ error.message ++ "\n"⟩

end Exit

def decode (bytes : ByteArray) : Except ReadFailure String :=
  match String.fromUTF8? bytes with
  | some text => .ok text
  | none => .error .notUtf8

/-- Render a template that was read, or report why it was not. -/
def Invocation.exit (invocation : Invocation) (content : Except ReadFailure ByteArray) : Exit :=
  match content >>= decode with
  | .error failure => .ofReadFailure invocation failure
  | .ok template =>
      .ofOutcome invocation.source
        (render (valuesOf invocation.values) (arraysOf invocation.arrays) template
          (.unlimited ""))

/-- Run the command, `read` giving the bytes of a source. -/
def run (arguments : List String) (read : Source → Except ReadFailure ByteArray) : Exit :=
  match parse arguments with
  | .error error => .ofUsageError error
  | .ok .help => ⟨0, helpText, ""⟩
  | .ok .version => ⟨0, versionText, ""⟩
  | .ok (.render invocation) => invocation.exit (read invocation.source)

end Stencil.CommandLine
