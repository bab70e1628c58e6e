import TemplateHost.Code.Source
import TemplateHost.Failure

/-!
# Contexts

A context is an isolated environment for template code: a store of its own, the scope in which code
runs now, and the templates that have been looked up since code last ran.
-/
namespace TemplateHost

structure Context where
  name : String
  store : Store
  globals : ScopeId
  /-- Whether all support code has run. -/
  initialized : Bool
  cache : Table String Value

namespace Context

def new (name : String) : Context :=
  let (builtins, store) := Store.empty.add (.ofForm (.foreign "module"))
  let scope := Table.ofList
    [("__name__", .str ("soypy.sandbox." ++ name)), (Run.builtinsName, builtins)]
  let (globals, store) := store.addScope scope
  ⟨name, store, globals, false, .empty⟩

/-- Runs code on the context's store. What it did before a fault stays. -/
def run {α : Type} (c : Context) (r : ScopeId → Run α) : Except Fault α × Context :=
  let (result, store) := (r c.globals).run.run c.store
  (result, { c with store := store })

def scope (c : Context) : Scope := c.store.scope c.globals

def describer (c : Context) : Describer := c.store.describer

def inject (c : Context) (name : String) (v : Value) : Context :=
  { c with store := c.store.setGlobal c.globals name v }

/-- Gives the context a new scope. It still counts as initialized if it did before. -/
def replaceScope (c : Context) (scope : Scope) : Context :=
  let (globals, store) := c.store.addScope scope
  { c with store := store, globals := globals, cache := .empty }

def resetRegistries (c : Context) : Context := (c.run Run.resetRegistries).2

def clearCache (c : Context) : Context := { c with cache := .empty }

def execute (c : Context) (path : String) (s : Source) : Except Failure Unit × Context :=
  let (result, c) := c.run fun k => Run.runSource k (Path.base path) s
  (result.mapError fun f => .loading path f.summary .moduleExecution, c)

/-- What reading a file gave. -/
structure Fetched where
  path : String
  result : Except Problem Source

/-- Runs files in order, up to the first that cannot be read or fails. -/
def executeAll (c : Context) : List Fetched → Except Failure Unit × Context
  | [] => (.ok (), c)
  | f :: r =>
    match f.result with
    | .error p => (.error (.loading f.path p.message .moduleUnreadable), c)
    | .ok s =>
      match c.execute f.path s with
      | (.ok (), c) => executeAll c r
      | (.error e, c) => (.error e, c)

/-- Runs the support files. The context is initialized if all of them succeed. -/
def runSupport (c : Context) (support : List Fetched) : Except Failure Unit × Context :=
  match c.executeAll support with
  | (.ok (), c) => (.ok (), { c with initialized := true })
  | (.error e, c) => (.error e, c)

/-- Runs a batch of files in a context whose support code has run. Templates have to be looked up
again afterwards, even if the batch fails. -/
def loadBatch (c : Context) (batch : List Fetched) : Except Failure Unit × Context :=
  let (result, c) := c.executeAll batch
  (result, c.clearCache)

/-- Loads a batch. Support code runs unless it has run before; then the registries are emptied. -/
def load (c : Context) (support batch : List Fetched) : Except Failure Unit × Context :=
  if c.initialized then c.resetRegistries.loadBatch batch
  else match c.runSupport support with
    | (.ok (), c) => c.loadBatch batch
    | (.error e, c) => (.error e, c)

end Context

end TemplateHost
