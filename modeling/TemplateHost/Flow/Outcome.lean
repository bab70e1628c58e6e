/-!
# Computations that pause

A computation on a shared state runs until it pauses or is done. While it pauses, others may change
the state; it goes on with whatever state it finds then. Run without interruption, pauses make no
difference.
-/
namespace TemplateHost

inductive Outcome (σ α : Type) where
  | done (a : α) (s : σ)
  | paused (s : σ) (rest : σ → Outcome σ α)

namespace Outcome
variable {σ α β : Type}

def state : Outcome σ α → σ
  | .done _ s | .paused s _ => s

def bind : Outcome σ α → (α → σ → Outcome σ β) → Outcome σ β
  | .done a s, f => f a s
  | .paused s rest, f => .paused s fun t => (rest t).bind f

/-- Goes on from every pause at once. -/
def run : Outcome σ α → α × σ
  | .done a s => (a, s)
  | .paused s rest => (rest s).run

theorem run_bind (o : Outcome σ α) (f : α → σ → Outcome σ β) :
    (o.bind f).run = (f o.run.1 o.run.2).run := by
  induction o with
  | done a s => rfl
  | paused s rest ih => exact ih s

theorem bind_done (o : Outcome σ α) : o.bind .done = o := by
  induction o with
  | done a s => rfl
  | paused s rest ih => simp [bind, ih]

theorem bind_assoc {γ : Type} (o : Outcome σ α) (f : α → σ → Outcome σ β)
    (g : β → σ → Outcome σ γ) :
    (o.bind f).bind g = o.bind fun a s => (f a s).bind g := by
  induction o with
  | done a s => rfl
  | paused s rest ih => simp [bind, ih]

end Outcome

/-- A computation from the state in which it is started. -/
def Flow (σ α : Type) := σ → Outcome σ α

namespace Flow
variable {σ α β : Type}

instance : Monad (Flow σ) where
  pure a := fun s => .done a s
  bind m f := fun s => (m s).bind f

/-- A step that nobody can interrupt. -/
def atomic (f : σ → α × σ) : Flow σ α := fun s => .done (f s).1 (f s).2

def read : Flow σ σ := atomic fun s => (s, s)

def update (f : σ → σ) : Flow σ Unit := atomic fun s => ((), f s)

def pause : Flow σ Unit := fun s => .paused s fun t => .done () t

def run (m : Flow σ α) (s : σ) : α × σ := (m s).run

@[simp] theorem run_pure (a : α) (s : σ) : run (pure a : Flow σ α) s = (a, s) := rfl

@[simp] theorem run_bind (m : Flow σ α) (f : α → Flow σ β) (s : σ) :
    run (m >>= f) s = run (f (run m s).1) (run m s).2 := Outcome.run_bind ..

@[simp] theorem run_atomic (f : σ → α × σ) (s : σ) : run (atomic f) s = f s := rfl

@[simp] theorem run_pause (s : σ) : run pause s = ((), s) := rfl

end Flow

end TemplateHost
