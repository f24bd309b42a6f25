import Stencil.CommandLine.Binding
import Stencil.CommandLine.Report

/-!
# Arguments

Arguments are read from left to right and the first fault ends the reading,
as does a request for help or for the version.  A value that stands in an
argument of its own, and the name of the template, wait to be checked until
the next option or template is accepted or the arguments are over.
-/

namespace Stencil.CommandLine

inductive BindingOption where
  | value
  | array
  deriving DecidableEq, Repr

def BindingOption.usage : BindingOption → String
  | .value => "--var <NAME=VALUE>"
  | .array => "--array <NAME=A,B,C>"

inductive Flag where
  | help
  | version
  deriving DecidableEq, Repr

def Flag.usage : Flag → String
  | .help => "--help"
  | .version => "--version"

inductive UsageError where
  | invalidValue (option : BindingOption) (raw : String) (fault : BindingFault)
  | missingValue (option : BindingOption)
  | emptyTemplate
  | unexpectedArgument (argument : String)
  | unexpectedValue (flag : Flag) (value : String)
  deriving DecidableEq, Repr

namespace UsageError

def fragments : UsageError → List Fragment
  | .invalidValue option raw fault =>
      [.words "invalid value '", .offending raw, .words "' for '", .literal option.usage,
        .words ("': " ++ fault.message)]
  | .missingValue option =>
      [.words "a value is required for '", .literal option.usage,
        .words "' but none was supplied"]
  | .emptyTemplate =>
      [.words "a value is required for '", .literal "[TEMPLATE]",
        .words "' but none was supplied"]
  | .unexpectedArgument argument =>
      [.words "unexpected argument '", .offending argument, .words "' found"]
  | .unexpectedValue flag value =>
      [.words "unexpected value '", .offending value, .words "' for '", .literal flag.usage,
        .words "' found; no more were expected"]

/-- What is wrong comes first, and where to find advice after an empty line. -/
def report (error : UsageError) : Report :=
  ⟨[.heading "error:", .words " "] ++ error.fragments ++
    [.words "\n\nFor more information, try '", .literal Flag.help.usage, .words "'.\n"]⟩

end UsageError

/-- What a rendering is asked to do, the bindings in the order given. -/
structure Invocation where
  values : List Binding
  arrays : List Binding
  template : Option String
  deriving DecidableEq, Repr

def Invocation.empty : Invocation := ⟨[], [], none⟩

inductive Request where
  | help
  | version
  | render (invocation : Invocation)
  deriving DecidableEq, Repr

def Flag.request : Flag → Request
  | .help => .help
  | .version => .version

/-! ## Forms of an argument -/

inductive Argument where
  | separator
  | long (name : String) (value : Option String)
  | short (letter : Char) (attached : Option String)
  | plain (text : String)
  deriving DecidableEq, Repr

/-- What is attached to a short option; an equals sign in front is not part of it. -/
def Argument.attachedTo : List Char → Option String
  | [] => none
  | '=' :: value => some (String.ofList value)
  | value => some (String.ofList value)

/-- A lone hyphen and the empty argument are no options. -/
def Argument.ofString (argument : String) : Argument :=
  match argument.toList with
  | ['-', '-'] => .separator
  | '-' :: '-' :: rest =>
      let name := String.ofList (rest.takeWhile (· ≠ '='))
      match rest.dropWhile (· ≠ '=') with
      | [] => .long name none
      | _ :: value => .long name (some (String.ofList value))
  | '-' :: letter :: attached => .short letter (attachedTo attached)
  | _ => .plain argument

/-- The option an argument asks for; none when there is no such option. -/
def optionNamed : String → Option (BindingOption ⊕ Flag)
  | "var" => some (.inl .value)
  | "array" => some (.inl .array)
  | "help" => some (.inr .help)
  | "version" => some (.inr .version)
  | _ => none

def optionLettered : Char → Option (BindingOption ⊕ Flag)
  | 'v' => some (.inl .value)
  | 'a' => some (.inl .array)
  | 'h' => some (.inr .help)
  | 'V' => some (.inr .version)
  | _ => none

/-! ## Reading -/

inductive Waiting where
  | nothing
  | option (option : BindingOption)
  | value (option : BindingOption) (raw : String)
  | template (path : String)
  deriving DecidableEq, Repr

structure Reading where
  invocation : Invocation
  waiting : Waiting
  deriving DecidableEq, Repr

inductive Progress where
  | more (reading : Reading)
  | done (request : Request)
  deriving DecidableEq, Repr

namespace Reading

def start : Reading := ⟨.empty, .nothing⟩

def addBinding (invocation : Invocation) (option : BindingOption) (raw : String) :
    Except UsageError Invocation :=
  match Binding.parse raw, option with
  | .ok binding, .value => .ok { invocation with values := invocation.values ++ [binding] }
  | .ok binding, .array => .ok { invocation with arrays := invocation.arrays ++ [binding] }
  | .error fault, option => .error (.invalidValue option raw fault)

def settle (reading : Reading) : Except UsageError Invocation :=
  match reading.waiting with
  | .nothing => .ok reading.invocation
  | .option option => .error (.missingValue option)
  | .value option raw => addBinding reading.invocation option raw
  | .template path =>
      if path.isEmpty then .error .emptyTemplate
      else .ok { reading.invocation with template := some path }

def hasTemplate (reading : Reading) : Bool :=
  match reading.waiting with
  | .template _ => true
  | _ => reading.invocation.template.isSome

def readTemplate (reading : Reading) (path : String) : Except UsageError Reading := do
  if reading.hasTemplate then throw (.unexpectedArgument path)
  return ⟨← reading.settle, .template path⟩

def readOption (reading : Reading) (option : BindingOption) (attached : Option String) :
    Except UsageError Progress := do
  let invocation ← reading.settle
  match attached with
  | some raw => return .more ⟨← addBinding invocation option raw, .nothing⟩
  | none => return .more ⟨invocation, .option option⟩

def readFlag (reading : Reading) (flag : Flag) : Except UsageError Progress := do
  discard reading.settle
  return .done flag.request

def readLong (reading : Reading) (name : String) (value : Option String) :
    Except UsageError Progress :=
  match optionNamed name, value with
  | some (.inl option), value => reading.readOption option value
  | some (.inr flag), none => reading.readFlag flag
  | some (.inr flag), some value => .error (.unexpectedValue flag value)
  | none, _ => .error (.unexpectedArgument ("--" ++ name))

def readShort (reading : Reading) (letter : Char) (attached : Option String) :
    Except UsageError Progress :=
  match optionLettered letter with
  | some (.inl option) => reading.readOption option attached
  | some (.inr flag) => reading.readFlag flag
  | none => .error (.unexpectedArgument ("-" ++ String.singleton letter))

def readPlain (reading : Reading) (text : String) : Except UsageError Reading :=
  match reading.waiting with
  | .option option => .ok { reading with waiting := .value option text }
  | _ => reading.readTemplate text

/-- After the separator every argument is a template. -/
def readTemplates (reading : Reading) : List String → Except UsageError Request
  | [] => do return .render (← reading.settle)
  | path :: rest => do (← reading.readTemplate path).readTemplates rest

def readAll (reading : Reading) : List String → Except UsageError Request
  | [] => do return .render (← reading.settle)
  | argument :: rest =>
      match Argument.ofString argument with
      | .separator => reading.readTemplates rest
      | .plain text => do (← reading.readPlain text).readAll rest
      | .long name value => do
          match ← reading.readLong name value with
          | .more reading => reading.readAll rest
          | .done request => return request
      | .short letter attached => do
          match ← reading.readShort letter attached with
          | .more reading => reading.readAll rest
          | .done request => return request

end Reading

def parse (arguments : List String) : Except UsageError Request :=
  Reading.start.readAll arguments

end Stencil.CommandLine
