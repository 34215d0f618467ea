import VirtualClasspath.Sorted.Set
import VirtualClasspath.TypeName

/-!
# Hosts

The host is the platform that the compiler itself runs on. It has system types of its own, which a
backend may be served instead of the provider's.

`types`, `resources` and `modules` are `list`, `resources` and `modules` of the index of host types
in section 6 of the specification; `none` is the host that has nothing, and `ofNames` the one with
fixed lists. Out of scope: a host whose types change from one question to the next.
-/

namespace VirtualClasspath

/-- The module that holds the root of the class hierarchy. -/
def baseModule : String := "java.base"

/-- The system types of a platform. -/
structure Host where
  /-- The types in a package, or in it and everything below. -/
  types : (package : String) → (recursive : Bool) → List TypeName
  /-- The objects in a package that are no types. -/
  resources : (package : String) → (recursive : Bool) → List String
  modules : List String

namespace Host

/-- A platform without types. -/
def none : Host := ⟨fun _ _ => [], fun _ _ => [], []⟩

/-- Whether a resource `package.name.extension` lies in a package. -/
def resourceIn (package : String) (recursive : Bool) (resource : String) : Bool :=
  match Text.cutLast '.' resource.toList with
  | some (stem, _) => TypeName.inPackage ⟨String.ofList stem⟩ package recursive
  | .none => false

/-- A platform with a fixed list of types and resources in the base module. -/
def ofNames (names : List TypeName) (resources : List String) : Host where
  types package recursive :=
    (SortedSet.ofList names).toList.filter fun n => n.inPackage package recursive
  resources package recursive :=
    (resources.mergeSort (· ≤ ·)).filter (resourceIn package recursive)
  modules := [baseModule]

end Host

end VirtualClasspath
