import TemplateHost.Code.Statement
import TemplateHost.Fault
import TemplateHost.Library.Function
import TemplateHost.Table

/-!
# The objects of running code

Functions, types, namespaces and the like are objects in a store. Code runs in a scope, which binds
its global names; a function keeps the scope in which it was defined. Members that an object lacks
it has from its type, and a type from the type that it extends.
-/
namespace TemplateHost

abbrev ScopeId := Nat

abbrev Scope := Table String Value

/-- Functions that the support code defines. -/
inductive Routine where
  | library (f : Library.Function)
  | provide
  | lookup
  | delegateKey
  | registerDelegate
  | selectDelegate
  | emptyTemplate
  | quote
deriving DecidableEq

def Routine.name : Routine → String
  | .library f => f.name
  | .provide => "provide"
  | .lookup => "get_object_by_name"
  | .delegateKey => "_delegate_key"
  | .registerDelegate => "register_delegate_fn"
  | .selectDelegate => "get_delegate_fn"
  | .emptyTemplate => "_empty_template_fn"
  | .quote => "quote"

inductive Form where
  | namespaceType
  | namespaceOf (type : ObjectId)
  /-- A type of content, and the type that it extends. -/
  | contentType (context : Safety) (base : Option ObjectId)
  /-- The type whose members name the kinds of content. -/
  | kindTable
  | routine (r : Routine) (scope : ScopeId)
  | template (t : Template) (scope : ScopeId)
  /-- A function from outside. -/
  | function (name : String)
  | bag
  /-- An object that refuses every member it does not have, with a message. -/
  | guarded (message : String)
  | foreign (type : String)

namespace Form

def callableName? : Form → Option String
  | .namespaceType => some "Namespace"
  | .contentType context _ => some context.typeName
  | .kindTable => some "ContentKind"
  | .routine r _ => some r.name
  | .template t _ => some t.name
  | .function name => some name
  | .namespaceOf _ | .bag | .guarded _ | .foreign _ => none

def isCallable (f : Form) : Bool := f.callableName?.isSome

def isType : Form → Bool
  | .namespaceType | .contentType _ _ | .kindTable => true
  | _ => false

def typeName : Form → String
  | .namespaceType | .contentType _ _ | .kindTable => "type"
  | .namespaceOf _ => "Namespace"
  | .routine _ _ | .template _ _ | .function _ => "function"
  | .bag => "Bag"
  | .guarded _ => "Guarded"
  | .foreign type => type

/-- The type whose members an object of this form inherits. -/
def parent? : Form → Option ObjectId
  | .namespaceOf type => some type
  | .contentType _ base => base
  | _ => none

/-- What refuses a member that is not there. -/
def refusal (f : Form) (member : String) : Fault :=
  match f with
  | .guarded message => .raised "ValueError" message
  | _ =>
    match f.isType, f.callableName? with
    | true, some name => .missingMember ("type object '" ++ name ++ "'") member
    | _, _ => .missingMember ("'" ++ f.typeName ++ "' object") member

end Form

structure Object where
  form : Form
  members : Table String Value

def Object.ofForm (form : Form) : Object := ⟨form, .empty⟩

def Object.memberNames (o : Object) : List String :=
  o.members.keys.mergeSort fun a b => !decide (b < a)

def Object.literal (o : Object) : String :=
  match o.form, o.form.callableName? with
  | .namespaceOf _, _ => "Namespace(" ++ Text.join ", " o.memberNames ++ ")"
  | f, some name => "<" ++ f.typeName ++ " " ++ name ++ ">"
  | f, none => "<" ++ f.typeName ++ " object>"

structure Store where
  objects : Array Object
  scopes : Array Scope

namespace Store

def empty : Store := ⟨#[], #[]⟩

def object? (s : Store) (i : ObjectId) : Option Object := s.objects[i]?

def scope (s : Store) (k : ScopeId) : Scope := (s.scopes[k]?).getD .empty

def setScope (s : Store) (k : ScopeId) (scope : Scope) : Store :=
  { s with scopes := s.scopes.modify k fun _ => scope }

def setGlobal (s : Store) (k : ScopeId) (name : String) (v : Value) : Store :=
  s.setScope k ((s.scope k).set name v)

def addScope (s : Store) (scope : Scope) : ScopeId × Store :=
  (s.scopes.size, { s with scopes := s.scopes.push scope })

def add (s : Store) (o : Object) : Value × Store :=
  (.object s.objects.size, { s with objects := s.objects.push o })

def describer (s : Store) : Describer where
  literal i := match s.object? i with
    | some o => o.literal
    | none => "<object>"
  typeName i := match s.object? i with
    | some o => o.form.typeName
    | none => "object"

/-- What refuses a member of a value that is no object of the store. -/
def refusal (s : Store) (v : Value) (member : String) : Fault :=
  .missingMember ("'" ++ v.typeName s.describer.typeName ++ "' object") member

def objectOf? (s : Store) : Value → Option Object
  | .object i => s.object? i
  | _ => none

def own? (s : Store) (i : ObjectId) (name : String) : Option Value :=
  (s.object? i).bind fun o => o.members.get? name

/-- A member of an object, its own or the one that it inherits; no type inherits from one that
inherits itself. A function is the same for all that inherit it: it is not bound to any of them. -/
def member? (s : Store) (o : Object) (name : String) : Option Value :=
  (o.members.get? name).or (o.form.parent?.bind fun type => s.own? type name)

def member (s : Store) (v : Value) (name : String) : Except Fault Value :=
  match s.objectOf? v with
  | some o => match s.member? o name with
    | some w => .ok w
    | none => .error (o.form.refusal name)
  | none => .error (s.refusal v name)

/-- Objects take any member; all other values take none. -/
def setMember (s : Store) (owner : Value) (name : String) (v : Value) : Except Fault Store :=
  match owner with
  | .object i => .ok { s with
      objects := s.objects.modify i fun o => { o with members := o.members.set name v } }
  | _ => .error (s.refusal owner name)

def isCallable (s : Store) (v : Value) : Bool :=
  match s.objectOf? v with
  | some o => o.form.isCallable
  | none => false

end Store

/-- Code that runs on a store. What it did to the store before a fault stays. -/
abbrev Run := ExceptT Fault (StateM Store)

namespace Run

def ofExcept {α : Type} : Except Fault α → Run α
  | .ok a => pure a
  | .error f => throw f

def add (o : Object) : Run Value := do
  let s ← get
  let (v, s) := s.add o
  set s
  return v

def setGlobal (k : ScopeId) (name : String) (v : Value) : Run Unit :=
  modify fun s => s.setGlobal k name v

def global? (k : ScopeId) (name : String) : Run (Option Value) :=
  return ((← get).scope k).get? name

def global (k : ScopeId) (name : String) : Run Value := do
  match ← global? k name with
  | some v => return v
  | none => throw (.undefinedName name)

def member (v : Value) (name : String) : Run Value := do
  ofExcept ((← get).member v name)

def setMember (owner : Value) (name : String) (v : Value) : Run Unit := do
  set (← ofExcept ((← get).setMember owner name v))

/-- The member, or nothing if there is none; any other fault stops the run. -/
def member? (v : Value) (name : String) : Run (Option Value) := do
  match (← get).member v name with
  | .ok w => return some w
  | .error (.missingMember _ _) => return none
  | .error f => throw f

def resolve (k : ScopeId) (head : String) (rest : List String) : Run Value := do
  rest.foldlM member (← global k head)

/-- Binds a dotted name: its last part, in what the parts before it stand for. -/
def assign (k : ScopeId) (name : String) (v : Value) : Run Unit :=
  match Text.dotted name with
  | [] => pure ()
  | [head] => setGlobal k head v
  | head :: next :: rest => do
    let path := next :: rest
    let owner ← resolve k head path.dropLast
    setMember owner (path.getLast (by simp [path])) v

def describer : Run Describer := return (← get).describer

def textOf (v : Value) : Run String := do ofExcept (Library.textOf (← describer) v)

end Run

end TemplateHost
