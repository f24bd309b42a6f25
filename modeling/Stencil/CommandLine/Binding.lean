import Stencil.Bindings

/-!
# Bindings on the command line

A binding is written as a name, an equals sign and a value.  The name ends at
the first equals sign and is not empty.  The value of an array lists its
elements between commas; the empty value lists none.
-/

namespace Stencil.CommandLine

inductive BindingFault where
  | noSeparator (raw : String)
  | noName (raw : String)
  deriving DecidableEq, Repr

def BindingFault.message : BindingFault → String
  | .noSeparator raw => "expected NAME=VALUE, got '" ++ raw ++ "'"
  | .noName raw => "missing name in '" ++ raw ++ "'"

structure Binding where
  name : String
  value : String
  deriving DecidableEq, Repr

namespace Binding

def parse (raw : String) : Except BindingFault Binding :=
  let name := raw.toList.takeWhile (· ≠ '=')
  match raw.toList.dropWhile (· ≠ '=') with
  | [] => .error (.noSeparator raw)
  | _ :: value =>
      if name.isEmpty then .error (.noName raw)
      else .ok ⟨String.ofList name, String.ofList value⟩

def text (binding : Binding) : String := binding.name ++ "=" ++ binding.value

end Binding

/-! ## Elements -/

/-- The pieces of a text between separators, of which there is one more than of these. -/
def piecesBetween (separator : Char) (text : String) : List String :=
  (text.toList.splitOn separator).map String.ofList

def elementsOf (value : String) : List String :=
  if value.isEmpty then [] else piecesBetween ',' value

def joinElements (elements : List String) : String := String.intercalate "," elements

/-! ## Maps from occurrences -/

def valuesOf (bindings : List Binding) : Values :=
  Bindings.ofList (bindings.map fun binding => (binding.name, binding.value))

def arraysOf (bindings : List Binding) : Arrays :=
  Bindings.ofList (bindings.map fun binding => (binding.name, elementsOf binding.value))

end Stencil.CommandLine
