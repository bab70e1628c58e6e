import TemplateHost.Context.Basic
import TemplateHost.Text.Resemblance

/-!
# Looking up templates

A template is found by its dotted name. Found templates are kept until code runs again. For a name
that stands for nothing callable, the callable name that resembles it most is suggested; only names
inside namespaces are considered, and none inside the one that templates call into.
-/
namespace TemplateHost.Context

def memberOrNull (s : Store) (v : Value) (name : String) : Except Fault Value :=
  match s.member v name with
  | .error (.missingMember _ _) => .ok .null
  | r => r

def descend (s : Store) (v : Value) (name : String) : Except Fault Value :=
  if v.isNull then .ok .null else memberOrNull s v name

/-- A dotted name in two: up to the first dot and after it. -/
def splitHead (name : String) : String × String :=
  let head := name.toList.takeWhile (· ≠ '.')
  (String.ofList head, String.ofList (name.toList.drop (head.length + 1)))

def resolve (c : Context) (name : String) : Except Fault Value :=
  let (head, rest) := splitHead name
  let parts := if rest = "" then [] else Text.dotted rest
  parts.foldlM (descend c.store) ((c.scope.get? head).getD .null)

def namespaceType? (c : Context) : Option ObjectId :=
  match c.scope.get? "Namespace" with
  | some (.object i) =>
    match c.store.object? i with
    | some ⟨.namespaceType, _⟩ => some i
    | _ => none
  | _ => none

def namespaceMembers? (s : Store) (type : ObjectId) (v : Value) : Option (Table String Value) :=
  match s.objectOf? v with
  | some ⟨.namespaceOf t, members⟩ => if t = type then some members else none
  | _ => none

/-- The dotted names of everything callable in a namespace and the namespaces in it; `depth` bounds
how deeply they are nested. -/
def callableNames (s : Store) (type : ObjectId) : Nat → String → Table String Value → List String
  | 0, _, _ => []
  | depth + 1, path, members => members.entries.flatMap fun (name, v) =>
    let dotted := path ++ "." ++ name
    match namespaceMembers? s type v with
    | some inner => callableNames s type depth dotted inner
    | none => if s.isCallable v then [dotted] else []

/-- The namespace that templates call into. -/
def interfaceName : String := "soy"

def suggestible (c : Context) (type : ObjectId) : List String :=
  c.scope.entries.flatMap fun (name, v) =>
    if name = interfaceName then []
    else match namespaceMembers? c.store type v with
      | some members => callableNames c.store type c.store.objects.size name members
      | none => []

def suggestion? (c : Context) (name : String) : Option String :=
  c.namespaceType?.bind fun type => Text.Resemblance.closest? name (c.suggestible type)

/-- The template of a name, or its place in the cache. -/
def find (c : Context) (name : String) : Except Failure (Value × Context) :=
  match c.cache.get? name with
  | some v => .ok (v, c)
  | none =>
    match c.resolve name with
    | .error _ => .error (.unknownTemplate name none)
    | .ok v =>
      if c.store.isCallable v then .ok (v, { c with cache := c.cache.set name v })
      else .error (.unknownTemplate name (c.suggestion? name))

def get (c : Context) (loading : Bool) (name : String) : Except Failure (Value × Context) :=
  if loading then c.find name else .error .loadingDisabled

def callTemplate (f data injected : Value) : Run String := do
  Run.textOf (← Run.call f [data, .null, injected])

def render (c : Context) (loading : Bool) (name : String) (data injected : Value) :
    Except Problem String × Context :=
  match c.get loading name with
  | .error e => (.error (.failure e), c)
  | .ok (f, c) =>
    let (result, c) := c.run fun _ => callTemplate f data injected
    (result.mapError .fault, c)

end TemplateHost.Context
