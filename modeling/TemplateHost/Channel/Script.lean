import TemplateHost.Channel.Basic

/-!
# Listeners that act

A listener may itself use the channel that calls it, and it may raise. Its script is the list of its
actions. What is left to do stands on an agenda: an announcement puts its calls on it, and a call
the actions of its listener. An announcement absorbs the errors of its listeners and nothing else: a
cancellation, or a request to exit, is no error and leaves all announcements that are under way.
-/
namespace TemplateHost.Channel

inductive Action (α ε : Type) where
  | on (listener : α)
  | once (listener : α)
  | off (listener : α)
  | emit (error : Option ε)
  | wait (id : String)
  | cancel (id : String)
  /-- Raises an error. -/
  | fail
  /-- Raises something that is no error. -/
  | abort

inductive Item (α ε : Type) where
  | act (a : Action α ε)
  | call (listener : α) (error : Option ε)
  | endEmit (error : Option ε)

/-- What has happened: who was called with what, how many listeners failed, and how often something
was raised that nobody absorbed. -/
structure Session (α ε : Type) where
  channel : Channel α ε
  calls : List (α × Option ε)
  failures : Nat
  aborts : Nat

variable {α ε : Type} [DecidableEq α]

def isAction : Item α ε → Bool
  | .act _ => true
  | _ => false

/-- A failure ends the actions of the listener that fails. -/
def skipActions (agenda : List (Item α ε)) : List (Item α ε) := agenda.dropWhile isAction

def calls (c : Channel α ε) (error : Option ε) : List (Item α ε) :=
  c.listeners.map fun l => .call l error

def perform (s : Session α ε) (agenda : List (Item α ε)) :
    Action α ε → Session α ε × List (Item α ε)
  | .on l => ({ s with channel := s.channel.on l }, agenda)
  | .once l => ({ s with channel := s.channel.once l }, agenda)
  | .off l => ({ s with channel := s.channel.off l }, agenda)
  | .emit error =>
    ({ s with channel := s.channel.beginEmit },
      calls s.channel error ++ .endEmit error :: agenda)
  | .wait id => ({ s with channel := s.channel.wait id }, agenda)
  | .cancel id => ({ s with channel := s.channel.cancel id }, agenda)
  | .fail => ({ s with failures := s.failures + 1 }, skipActions agenda)
  | .abort => ({ s with aborts := s.aborts + 1 }, [])

def step (script : α → List (Action α ε)) (s : Session α ε) (agenda : List (Item α ε)) :
    Item α ε → Session α ε × List (Item α ε)
  | .act a => perform s agenda a
  | .call l error =>
    ({ s with calls := s.calls ++ [(l, error)] }, (script l).map .act ++ agenda)
  | .endEmit error => ({ s with channel := s.channel.endEmit error }, agenda)

/-- Works through an agenda. Listeners can announce without end; `fuel` bounds the items done. -/
def runAgenda (script : α → List (Action α ε)) : Nat → Session α ε → List (Item α ε) → Session α ε
  | 0, s, _ => s
  | _, s, [] => s
  | fuel + 1, s, item :: agenda =>
    let (s, agenda) := step script s agenda item
    runAgenda script fuel s agenda

/-- One action from outside, after which the event loop runs until nothing is left to do. -/
def runAction (script : α → List (Action α ε)) (c : Channel α ε) (a : Action α ε) : Session α ε :=
  let s := runAgenda script 100000 ⟨c, [], 0, 0⟩ [.act a]
  { s with channel := s.channel.turn }

end TemplateHost.Channel
