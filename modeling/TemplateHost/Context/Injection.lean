import TemplateHost.Context.Basic

/-!
# Globals from outside

Values that a host puts into a context: constants, templates, and objects with members of their own.
-/
namespace TemplateHost

inductive Injected where
  | constant (v : Value)
  | template (t : Template)
  | bag (members : List (String × Injected))
  | space (members : List (String × Injected))
  | guarded (message : String)
deriving Inhabited

namespace Injected

mutual

/-- Makes the value in a scope. Namespaces are of the given type. -/
def make (k : ScopeId) (namespaceType : ObjectId) : Injected → Run Value
  | .constant v => return v
  | .template t => Run.define k t
  | .bag members => do
    Run.add ⟨.bag, .ofList (← makeMembers k namespaceType members)⟩
  | .space members => do
    Run.add ⟨.namespaceOf namespaceType, .ofList (← makeMembers k namespaceType members)⟩
  | .guarded message => Run.add (.ofForm (.guarded message))

def makeMembers (k : ScopeId) (namespaceType : ObjectId) :
    List (String × Injected) → Run (List (String × Value))
  | [] => return []
  | (name, x) :: r => do
    let v ← make k namespaceType x
    return (name, v) :: (← makeMembers k namespaceType r)

end

end Injected

namespace Context

/-- The type of the namespaces of a scope; a dangling one if it has none. -/
def namespaceTypeOf (c : Context) : ObjectId :=
  match c.scope.get? "Namespace" with
  | some (.object i) => i
  | _ => c.store.objects.size

def injectValue (c : Context) (name : String) (x : Injected) : Context :=
  (c.run fun k => do Run.setGlobal k name (← x.make k c.namespaceTypeOf)).2

def kept (c : Context) (names : List String) : Scope :=
  .ofList (names.filterMap fun n => (c.scope.get? n).map fun v => (n, v))

/-- Gives the context a new scope of some old globals and some from outside. -/
def setScope (c : Context) (keep : List String) (values : List (String × Injected)) : Context :=
  let type := c.namespaceTypeOf
  let c := c.replaceScope (c.kept keep)
  (c.run fun k => values.forM fun (name, x) => do Run.setGlobal k name (← x.make k type)).2

end Context

end TemplateHost
