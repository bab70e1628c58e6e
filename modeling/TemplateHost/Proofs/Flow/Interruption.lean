import Mathlib.Order.Defs.Unbundled
import TemplateHost.Flow.Outcome

/-!
# Interrupted computations

What others make of the state while a computation pauses is given by the number of the pause and the
state in which it begins. Between its pauses the computation itself makes strides; what no stride
does is never the computation's doing, whatever the others do.
-/
namespace TemplateHost

/-- What others make of the state during each pause. -/
abbrev Others (σ : Type) := Nat → σ → σ

def Others.idle {σ : Type} : Others σ := fun _ s => s

namespace Outcome
variable {σ α β : Type} {R : σ → σ → Prop} {s : σ} {o : Outcome σ α}

/-- The result, the final state and the number of the next pause. -/
def amid (others : Others σ) : Outcome σ α → Nat → α × σ × Nat
  | .done a s, n => (a, s, n)
  | .paused s rest, n => (rest (others n s)).amid others (n + 1)

/-- From where to where each stride brings the state; the first one begins at a given state. -/
def strides (others : Others σ) : Outcome σ α → σ → Nat → List (σ × σ)
  | .done _ t, s, _ => [(s, t)]
  | .paused t rest, s, n =>
    (s, t) :: (rest (others n t)).strides others (others n t) (n + 1)

/-- Whatever others do, every stride is within a relation. -/
def Within (R : σ → σ → Prop) : σ → Outcome σ α → Prop
  | s, .done _ t => R s t
  | s, .paused t rest => R s t ∧ ∀ u, (rest u).Within R u

theorem amid_bind (others : Others σ) (o : Outcome σ α) (f : α → σ → Outcome σ β) (n : Nat) :
    (o.bind f).amid others n =
      (f (o.amid others n).1 (o.amid others n).2.1).amid others (o.amid others n).2.2 := by
  induction o generalizing n with
  | done a t => rfl
  | paused t rest ih => exact ih (others n t) (n + 1)

theorem amid_idle (o : Outcome σ α) (n : Nat) :
    (o.amid .idle n).1 = o.run.1 ∧ (o.amid .idle n).2.1 = o.run.2 := by
  induction o generalizing n with
  | done a t => exact ⟨rfl, rfl⟩
  | paused t rest ih => exact ih t (n + 1)

theorem Within.of_earlier (htrans : ∀ {s t u}, R s t → R t u → R s u) {t : σ} (hst : R s t)
    (ho : o.Within R t) : o.Within R s := by
  cases o with
  | done a u => exact htrans hst ho
  | paused u rest => exact ⟨htrans hst ho.1, ho.2⟩

theorem Within.mono {R' : σ → σ → Prop} (himp : ∀ s t, R s t → R' s t) (ho : o.Within R s) :
    o.Within R' s := by
  induction o generalizing s with
  | done a t => exact himp s t ho
  | paused t rest ih => exact ⟨himp s t ho.1, fun u => ih u (ho.2 u)⟩

theorem Within.run (htrans : ∀ {s t u}, R s t → R t u → R s u) (ho : o.Within R s) :
    R s o.run.2 := by
  induction o generalizing s with
  | done a t => exact ho
  | paused t rest ih => exact htrans ho.1 (ih t (ho.2 t))

theorem Within.bind (htrans : ∀ {s t u}, R s t → R t u → R s u) {f : α → σ → Outcome σ β}
    (ho : o.Within R s) (hf : ∀ a t, (f a t).Within R t) : (o.bind f).Within R s := by
  induction o generalizing s with
  | done a t => exact (hf a t).of_earlier htrans ho
  | paused t rest ih => exact ⟨ho.1, fun u => ih u (ho.2 u)⟩

theorem Within.of_mem_strides (ho : o.Within R s) (others : Others σ) (n : Nat) :
    ∀ q ∈ o.strides others s n, R q.1 q.2 := by
  induction o generalizing s n with
  | done a t => exact List.forall_mem_singleton.mpr ho
  | paused t rest ih =>
    exact List.forall_mem_cons.mpr ⟨ho.1, ih (others n t) (ho.2 (others n t)) (n + 1)⟩

/-- The last stride ends where the computation does. What follows at once on the end belongs to the
last stride. -/
theorem exists_strides (others : Others σ) (o : Outcome σ α) (g : α → σ → β) (k : α → σ → σ)
    (s : σ) (n : Nat) :
    ∃ earlier u, o.strides others s n = earlier ++ [(u, (o.amid others n).2.1)] ∧
      (o.bind fun a t => .done (g a t) (k a t)).strides others s n =
        earlier ++ [(u, k (o.amid others n).1 (o.amid others n).2.1)] := by
  induction o generalizing s n with
  | done a t => exact ⟨[], s, rfl, rfl⟩
  | paused t rest ih =>
    obtain ⟨earlier, u, hstrides, hbind⟩ := ih (others n t) (others n t) (n + 1)
    exact ⟨(s, t) :: earlier, u, congrArg ((s, t) :: ·) hstrides, congrArg ((s, t) :: ·) hbind⟩

theorem strides_map (others : Others σ) (o : Outcome σ α) (g : α → β) (s : σ) (n : Nat) :
    (o.bind fun a t => .done (g a) t).strides others s n = o.strides others s n := by
  obtain ⟨earlier, u, hstrides, hbind⟩ :=
    o.exists_strides others (fun a _ => g a) (fun _ t => t) s n
  exact hbind.trans hstrides.symm

theorem Within.strides_bind_done (ho : o.Within R s) (g : α → σ → β) (k : α → σ → σ)
    (others : Others σ) (n : Nat) :
    ∃ earlier u, (o.bind fun a t => .done (g a t) (k a t)).strides others s n =
        earlier ++ [(u, k (o.amid others n).1 (o.amid others n).2.1)] ∧
      (∀ q ∈ earlier, R q.1 q.2) ∧ R u (o.amid others n).2.1 := by
  obtain ⟨earlier, u, hstrides, hbind⟩ := o.exists_strides others g k s n
  have hall := ho.of_mem_strides others n
  rw [hstrides] at hall
  exact ⟨earlier, u, hbind, fun q hq => hall q (List.mem_append_left _ hq),
    hall _ (List.mem_append_right _ (List.mem_singleton_self _))⟩

end Outcome

namespace Flow
variable {σ ε α β : Type} {R R' : σ → σ → Prop}

/-- Whatever others do, every stride of a computation that an error may end is within a relation. -/
structure Within (R : σ → σ → Prop) (m : ExceptT ε (Flow σ) α) : Prop where
  strides (s : σ) : (ExceptT.run m s).Within R s

theorem Within.mono (himp : ∀ s t, R s t → R' s t) {m : ExceptT ε (Flow σ) α}
    (hm : Within R m) : Within R' m := ⟨fun s => (hm.strides s).mono himp⟩

theorem within_attempt {f : σ → Except ε α × σ} (hf : ∀ s, R s (f s).2) :
    Within R (ExceptT.mk (atomic f)) := ⟨hf⟩

theorem within_lift_atomic {f : σ → α × σ} (hf : ∀ s, R s (f s).2) :
    Within R (ExceptT.lift (atomic f) : ExceptT ε (Flow σ) α) := ⟨hf⟩

section Preorder
variable [IsPreorder σ R]

theorem within_pure (a : α) : Within R (pure a : ExceptT ε (Flow σ) α) := ⟨refl_of R⟩

theorem within_throw (e : ε) : Within R (throw e : ExceptT ε (Flow σ) α) := ⟨refl_of R⟩

theorem within_read : Within R (ExceptT.lift read : ExceptT ε (Flow σ) σ) := ⟨refl_of R⟩

theorem within_pause : Within R (ExceptT.lift pause : ExceptT ε (Flow σ) Unit) :=
  ⟨fun s => ⟨refl_of R s, refl_of R⟩⟩

theorem Within.bind {m : ExceptT ε (Flow σ) α} {f : α → ExceptT ε (Flow σ) β} (hm : Within R m)
    (hf : ∀ a, Within R (f a)) : Within R (m >>= f) := by
  constructor
  intro s
  change ((ExceptT.run m s).bind fun r t => ExceptT.bindCont f r t).Within R s
  refine Outcome.Within.bind (R := R) (trans_of R) (hm.strides s) fun r t => ?_
  cases r with
  | ok a => exact (hf a).strides t
  | error e => exact refl_of R t

theorem Within.catch {m : ExceptT ε (Flow σ) α} {f : ε → ExceptT ε (Flow σ) α}
    (hm : Within R m) (hf : ∀ e, Within R (f e)) : Within R (tryCatch m f) := by
  constructor
  intro s
  refine Outcome.Within.bind (R := R) (trans_of R) (hm.strides s) fun r t => ?_
  cases r with
  | ok a => exact refl_of R t
  | error e => exact (hf e).strides t

end Preorder

end Flow

end TemplateHost
