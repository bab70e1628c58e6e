import TemplateHost.Watch.Loop

/-!
# Rehearsals

An environment to try out schedulers in. Passes are numbered as they begin and do nothing. While the
gate is closed they are held; otherwise they end at once, in failure if that is wanted.
-/
namespace TemplateHost.Watch

structure Rehearsal (T : Type) where
  now : T
  gateClosed : Bool
  failing : Bool
  /-- How many passes have begun. -/
  count : Nat
  /-- The pass held last, with its number, until it is ended. -/
  held : Option (PassId × Nat)
  /-- Passes that have begun, by number. -/
  begun : List (Nat × Pass)
  log : List LogEntry

namespace Rehearsal
variable {T : Type}

def start (now : T) : Rehearsal T := ⟨now, false, false, 0, none, [], []⟩

def resultOf (number : Nat) : String := "pass " ++ toString number

def begin (p : PassId) (x : Pass) (r : Rehearsal T) : Beginning (Rehearsal T) String :=
  let number := r.count + 1
  let r := { r with count := number, begun := r.begun ++ [(number, x)] }
  if r.gateClosed then .held { r with held := some (p, number) }
  else .going (.done (if r.failing then none else some (resultOf number)) r)

def environment : Environment T (Rehearsal T) String where
  clock := now
  report log r := { r with log := r.log ++ log }
  begin := begin

abbrev Run (T : Type) := Loop T (Rehearsal T) String

variable [Sub T] [LT T] [DecidableLT T]

def settle (l : Run T) : Run T := l.runUntilIdle environment 100000

def notifyAll (l : Run T) (changes : List Callback) : Run T :=
  settle (changes.foldl (fun l c => (l.notify c).2) l)

def finish (l : Run T) (well : Bool) : Run T :=
  match l.env.held with
  | none => l
  | some (p, number) =>
    let l := { l with env := { l.env with held := none } }
    settle (l.endPass environment p (if well then some (resultOf number) else none) !well)

end Rehearsal

end TemplateHost.Watch
