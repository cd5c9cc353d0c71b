/-
Interpose.Method.Resolve — finding declared methods by descriptor.

Overloads are never guessed: a descriptor that fits several methods is an
error that lists them.
-/
import Interpose.Method.Info

namespace Interpose

inductive ResolveError where
  /-- The text is no descriptor; the text is kept as it was given. -/
  | malformed (text : String) (fault : DescriptorFault)
  | noClass (className : String)
  | notFound (descriptor : String)
  | ambiguous (descriptor : String) (candidates : List String)
  deriving DecidableEq, Repr

namespace ResolveError

def message : ResolveError → String
  | malformed text fault => "malformed descriptor '" ++ text ++ "': " ++ fault.reason
  | noClass c => "class " ++ c ++ " not found"
  | notFound d => d ++ " not found"
  | ambiguous d cs => d ++ " is ambiguous: " ++ " | ".intercalate cs

end ResolveError

/-- Reads a descriptor, keeping the text for the error. -/
def MethodDescriptor.parse (s : String) : Except ResolveError MethodDescriptor :=
  (read s.toList).mapError (.malformed s)

namespace Declarations

/-- The one method a descriptor names. -/
def resolve (ds : Declarations) (d : MethodDescriptor) : Except ResolveError MethodId :=
  if !ds.classExists d.className then .error (.noClass d.className)
  else
    let named := ds.named d.className d.name
    let candidates := d.params.elim named fun ps => named.filter (·.params == ps)
    match candidates with
    | [] => .error (.notFound d.text)
    | [m] => .ok m.id
    | ms => .error (.ambiguous d.text (ms.map (·.descriptor)))

/-- The one method a text names. -/
def resolveText (ds : Declarations) (s : String) : Except ResolveError MethodId :=
  (MethodDescriptor.parse s).bind ds.resolve

/-- Every overload of a name, in order of declaration. -/
def resolveAll (ds : Declarations) (className name : String) :
    Except ResolveError (List MethodId) :=
  if !ds.classExists className then .error (.noClass className)
  else match ds.named className name with
    | [] => .error (.notFound (className ++ "#" ++ name))
    | ms => .ok (ms.map (·.id))

end Declarations

end Interpose
