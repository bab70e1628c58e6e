import TemplateHost.Flow.Outcome
import TemplateHost.Watch.State

/-!
# The event loop

Tasks that can go on stand in a queue; the first one runs up to its next pause. What passes do is up
to the environment: a pass begins, pauses any number of times and ends with a result, or is held
until it is ended from outside.
-/
namespace TemplateHost.Watch

inductive Job where
  | notification (n : NotificationId)
  | pass (p : PassId)

/-- How a pass begins. -/
inductive Beginning (σ ρ : Type) where
  | held (env : σ)
  | going (o : Outcome σ (Option ρ))

structure Environment (T σ ρ : Type) where
  clock : σ → T
  report : List LogEntry → σ → σ
  /-- Runs a pass of a scheduler over some files. A pass without a result has failed. -/
  begin : PassId → Pass → σ → Beginning σ ρ

structure Loop (T σ ρ : Type) where
  watch : State T ρ
  env : σ
  queue : List Job
  /-- Passes that have begun and paused. -/
  paused : Table PassId (σ → Outcome σ (Option ρ))

variable {T σ ρ : Type} [Sub T] [LT T] [DecidableLT T]

namespace Loop

def push (l : Loop T σ ρ) (j : Job) : Loop T σ ρ := { l with queue := l.queue ++ [j] }

def notify (l : Loop T σ ρ) (c : Callback) : NotificationId × Loop T σ ρ :=
  let (n, watch) := l.watch.notify c
  let l := { l with watch := watch }
  (n, l.push (.notification n))

def filesOf (l : Loop T σ ρ) (p : PassId) : List String :=
  match l.watch.passes[p]? with
  | some x => x.files
  | none => []

/-- Everything that waited for a pass can go on when it ends. -/
def endPass (e : Environment T σ ρ) (l : Loop T σ ρ) (p : PassId) (result : Option ρ)
    (failed : Bool) : Loop T σ ρ :=
  let env := if failed then e.report [.recompileFailed (l.filesOf p)] l.env else l.env
  let woken := match l.watch.passes[p]? with
    | some x => l.watch.waitingFor x.scheduler
    | none => []
  { l with
    watch := l.watch.endPass p result
    env := env
    queue := l.queue ++ woken.map .notification
    paused := l.paused.erase p }

def absorb (e : Environment T σ ρ) (l : Loop T σ ρ) (p : PassId) :
    Outcome σ (Option ρ) → Loop T σ ρ
  | .done r env =>
    let l := { l with env := env }
    l.endPass e p r r.isNone
  | .paused env rest =>
    let l := { l with env := env, paused := l.paused.set p rest }
    l.push (.pass p)

def runPass (e : Environment T σ ρ) (l : Loop T σ ρ) (p : PassId) : Loop T σ ρ :=
  match l.paused.get? p, l.watch.passes[p]? with
  | some rest, _ => l.absorb e p (rest l.env)
  | none, none => l
  | none, some x =>
    match e.begin p x l.env with
    | .held env => { l with env := env }
    | .going o => l.absorb e p o

def acceptJob (e : Environment T σ ρ) (l : Loop T σ ρ) (n : NotificationId) : Loop T σ ρ :=
  let (log, watch) := l.watch.accept n (e.clock l.env)
  let l := { l with watch := watch, env := e.report log l.env }
  match watch.notifications[n]? with
  | some ⟨_, .accepted⟩ => l.push (.notification n)
  | _ => l

def proceedJob (e : Environment T σ ρ) (l : Loop T σ ρ) (n : NotificationId) : Loop T σ ρ :=
  let (log, pass, watch) := l.watch.proceed n
  let l := { l with watch := watch, env := e.report log l.env }
  match pass with
  | some p => l.push (.pass p)
  | none => l

def runNotification (e : Environment T σ ρ) (l : Loop T σ ρ) (n : NotificationId) :
    Loop T σ ρ :=
  match l.watch.notifications[n]? with
  | some ⟨_, .arrived⟩ => l.acceptJob e n
  | some ⟨_, .accepted⟩ | some ⟨_, .waiting⟩ => l.proceedJob e n
  | _ => l

def runJob (e : Environment T σ ρ) (l : Loop T σ ρ) : Job → Loop T σ ρ
  | .notification n => l.runNotification e n
  | .pass p => l.runPass e p

/-- Runs jobs until none can go on; `fuel` bounds how many. -/
def runUntilIdle (e : Environment T σ ρ) : Nat → Loop T σ ρ → Loop T σ ρ
  | 0, l => l
  | fuel + 1, l =>
    match l.queue with
    | [] => l
    | j :: rest =>
      let l := { l with queue := rest }
      runUntilIdle e fuel (l.runJob e j)

end Loop

end TemplateHost.Watch
