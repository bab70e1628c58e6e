import TemplateHost.Code.Delegates
import TemplateHost.Code.Store

/-!
# Calling and rendering

Calls of types, routines and templates. A template renders its parts in order and puts their outputs
together. Calls nested too deeply stop the run.
-/
namespace TemplateHost
namespace Run

def mismatch {α : Type} (message : String) : Run α := throw (.mismatch message)

def notCallable {α : Type} (v : Value) : Run α := do
  mismatch ("'" ++ v.typeName (← describer).typeName ++ "' object is not callable")

def construct (type : ObjectId) (form : Form) (args : List Value) : Run Value :=
  match form, args with
  | .namespaceType, [] => add (.ofForm (.namespaceOf type))
  | .contentType context _, [] => return .safe context (.str "")
  | .contentType context _, [content] => return .safe context content
  | .kindTable, [] => add (.ofForm (.foreign "ContentKind"))
  | form, _ => throw (Library.Function.wrongArity (form.callableName?.getD ""))

/-- A new namespace, of the type that the scope calls `Namespace`. -/
def newNamespace (k : ScopeId) : Run Value := do
  match ← global k "Namespace" with
  | .object i =>
    match (← get).object? i with
    | some o => construct i o.form []
    | none => notCallable (.object i)
  | v => notCallable v

/-- The member of a namespace, which is declared if it is not there. -/
def declare (k : ScopeId) (owner : Value) (name : String) : Run Value := do
  match ← member? owner name with
  | some v => return v
  | none =>
    setMember owner name (← newNamespace k)
    member owner name

def declareTop (k : ScopeId) (head : String) (allowed : Bool) : Run Value := do
  match ← global? k head with
  | some v => return v
  | none =>
    if !allowed then throw (.undeclaredNamespace head)
    let v ← newNamespace k
    setGlobal k head v
    return v

/-- Declares a dotted name and returns what its last part stands for. -/
def provide (k : ScopeId) (name : String) (allowTop : Bool) : Run Value :=
  match Text.dotted name with
  | [] => return .null
  | head :: rest => do rest.foldlM (declare k) (← declareTop k head allowTop)

/-- The value of a dotted name, or null if some part of it is missing. -/
def lookup (k : ScopeId) (name : String) : Run Value :=
  match Text.dotted name with
  | [] => return .null
  | head :: rest => do
    rest.foldlM (fun v part =>
      if v.isNull then return .null else return (← member? v part).getD .null)
      ((← global? k head).getD .null)

def prioritiesName : String := "_DELEGATE_REGISTRY_PRIORITIES"

def functionsName : String := "_DELEGATE_REGISTRY_FUNCTIONS"

def registry (k : ScopeId) (name use : String) : Run Entries := do
  match ← global k name with
  | .map entries => return entries
  | v => throw ((← get).refusal v use)

def registerDelegate (k : ScopeId) (id variant priority function : Value) : Run Value := do
  let idText ← textOf id
  let variantText ← textOf variant
  let key := Delegates.key idText variantText
  let priorities ← registry k prioritiesName "get"
  let current := Entries.get? key priorities
  match Delegates.judge current priority with
  | .accepted =>
    setGlobal k prioritiesName (.map (Entries.set key priority priorities))
    let functions ← registry k functionsName "get"
    setGlobal k functionsName (.map (Entries.set key function functions))
    return .null
  | .ignored => return .null
  | .tied => throw (.tiedDelegates idText variantText)
  | .incomparable =>
    let name := fun (v : Value) => return "'" ++ v.typeName (← describer).typeName ++ "'"
    mismatch ("'>' not supported between instances of " ++ (← name priority) ++ " and "
      ++ (← name (current.getD .null)))

/-- A missing variant is the default one. -/
def selectDelegate (k : ScopeId) (id variant allowEmpty : Value) : Run Value := do
  let variantText ← if variant.isNull then pure "" else textOf variant
  let functions ← registry k functionsName "get"
  let idText ← textOf id
  match Delegates.select? functions idText variantText with
  | some f => return f
  | none =>
    if allowEmpty.isTrue then global k (Routine.name .emptyTemplate)
    else throw (.noDelegate idText variantText)

def nameOf (v : Value) : Run String := do
  match v with
  | .str s => return s
  | _ => throw ((← get).refusal v "split")

def runRoutine (r : Routine) (k : ScopeId) (args : List Value) : Run Value := do
  match r, args with
  | .library f, _ => ofExcept (f.apply (← describer) args)
  | .provide, [name] => provide k (← nameOf name) true
  | .provide, [name, allowTop] => provide k (← nameOf name) allowTop.isTrue
  | .lookup, [name] => lookup k (← nameOf name)
  | .delegateKey, [id, variant] => return Delegates.key (← textOf id) (← textOf variant)
  | .registerDelegate, [id, variant, priority, function] =>
    registerDelegate k id variant priority function
  | .selectDelegate, [id, variant] => selectDelegate k id variant (.bool false)
  | .selectDelegate, [id, variant, allowEmpty] => selectDelegate k id variant allowEmpty
  | .emptyTemplate, [] | .emptyTemplate, [_] | .emptyTemplate, [_, _]
  | .emptyTemplate, [_, _, _] => return .str ""
  | r, _ => throw (Library.Function.wrongArity r.name)

/-- The data that a template works on. -/
structure Input where
  data : Value
  injected : Value

def orEmpty (v : Value) : Value := if v.isTrue then v else .map []

def entry (v : Value) (name : String) : Run Value := do
  match v with
  | .map entries => return (Entries.text? entries name).getD .null
  | _ => throw ((← get).refusal v "get")

def neededEntry (v : Value) (name : String) : Run Value := do
  match v with
  | .map entries => match Entries.text? entries name with
    | some w => return w
    | none => throw (.missingKey (Text.quoted name))
  | _ => mismatch ("'" ++ v.typeName (← describer).typeName ++ "' object has no such entry")

def argument (x : Input) : Argument → Run Value
  | .literal v => return v
  | .data name => entry x.data name
  | .injected name => entry x.injected name

def raise {α : Type} (kind message : String) : Run α := throw (.ofRaise kind message)

def interfaceMember (k : ScopeId) (name : String) : Run Value := do
  member (← global k "soy") name

/-- The output of one part; `call` calls a function. -/
def renderPart (call : Value → List Value → Run Value) (k : ScopeId) (x : Input) :
    Part → Run Value
  | .text s => return .str s
  | .message default _ => return .str default
  | .data name => do
    let escape ← interfaceMember k "escape_html"
    call escape [← entry x.data name]
  | .injected name => do
    let escape ← interfaceMember k "escape_html"
    call escape [← entry x.injected name]
  | .needed name => do return .str (← textOf (← neededEntry x.data name))
  | .call path => do
    let f ← match Text.dotted path with
      | [] => throw (.undefinedName path)
      | head :: rest => resolve k head rest
    return .str (← textOf (← call f [x.data, .null, x.injected]))
  | .delegateCall id variant allowEmpty => do
    let select ← interfaceMember k "get_delegate_fn"
    let f ← call select [.str id, ← argument x variant, .bool allowEmpty]
    return .str (← textOf (← call f [x.data, .null, x.injected]))
  | .function name args => do
    let f ← interfaceMember k name
    return .str (← textOf (← call f (← args.mapM (argument x))))
  | .raise kind message => raise kind message

def joined (outputs : List Value) : Run String := do
  let texts ← outputs.mapM fun v => do
    match v with
    | .str s => return s
    | _ => mismatch ("expected text, found " ++ v.typeName (← describer).typeName)
  return Text.join "" texts

def render (call : Value → List Value → Run Value) (k : ScopeId) (t : Template)
    (data injected : Value) : Run Value := do
  let outputs ← t.body.mapM (renderPart call k ⟨orEmpty data, orEmpty injected⟩)
  match t.returns, t.kind with
  | some v, _ => return v
  | none, none => return .str (← joined outputs)
  | none, some kind => do
    let ordain ← interfaceMember k "ordain_content"
    call ordain [.str (← joined outputs), .str kind]

def callObject (call : Value → List Value → Run Value) (i : ObjectId) (form : Form)
    (args : List Value) : Run Value :=
  match form with
  | .namespaceType | .contentType _ _ | .kindTable => construct i form args
  | .routine r k => runRoutine r k args
  | .template t k => match args with
    | [] => render call k t .null .null
    | [data] | [data, _] => render call k t data .null
    | [data, _, injected] => render call k t data injected
    | _ => throw (Library.Function.wrongArity t.name)
  | .function _ => return .null
  | .namespaceOf _ | .bag | .guarded _ | .foreign _ => notCallable (.object i)

/-- A call with at most `depth` calls inside one another. -/
def invoke : Nat → Value → List Value → Run Value
  | 0, _, _ => throw .tooDeep
  | depth + 1, f, args => do
    match f with
    | .object i => match (← get).object? i with
      | some o => callObject (invoke depth) i o.form args
      | none => notCallable f
    | _ => notCallable f

def maxDepth : Nat := 900

def call (f : Value) (args : List Value) : Run Value := invoke maxDepth f args

end Run

end TemplateHost
