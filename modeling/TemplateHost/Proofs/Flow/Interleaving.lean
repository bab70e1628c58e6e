import Mathlib.Data.List.Forall2
import Mathlib.Logic.Relation
import TemplateHost.Flow.Outcome

/-!
# Interleaved computations

Computations on a shared state take turns in any order, each from one of its pauses to the next. If
every turn from a sound state makes a change that is allowed, and allowed changes spoil nothing that
is promised, each computation that is done has what it promises, whatever the order was.
-/
namespace TemplateHost

namespace Outcome
variable {σ α β : Type} {I : σ → Prop} {R : σ → σ → Prop} {Q : α → σ → Prop} {s : σ}
  {o : Outcome σ α}

/-- One turn: the computation goes on with the state that it finds. -/
inductive Turn : σ × Outcome σ α → σ × Outcome σ α → Prop where
  | resume (s u : σ) (rest : σ → Outcome σ α) : Turn (s, .paused u rest) ((rest s).state, rest s)

def result? : Outcome σ α → Option α
  | .done a _ => some a
  | .paused _ _ => none

/-- Every stride from a sound state is a change that is allowed, and the end is what is promised. -/
inductive Keeps (I : σ → Prop) (R : σ → σ → Prop) (Q : α → σ → Prop) : σ → Outcome σ α → Prop where
  | done {s t : σ} {a : α} (hst : R s t) (ha : Q a t) : Keeps I R Q s (.done a t)
  | paused {s t : σ} {rest : σ → Outcome σ α} (hst : R s t)
    (hrest : ∀ u, I u → Keeps I R Q u (rest u)) : Keeps I R Q s (.paused t rest)

theorem Keeps.state (ho : o.Keeps I R Q s) : R s o.state := by
  cases ho with
  | done hst _ => exact hst
  | paused hst _ => exact hst

theorem Keeps.of_earlier (htrans : ∀ s t u, R s t → R t u → R s u) {t : σ} (hst : R s t)
    (ho : o.Keeps I R Q t) : o.Keeps I R Q s := by
  cases ho with
  | done htu ha => exact .done (htrans s t _ hst htu) ha
  | paused htu hrest => exact .paused (htrans s t _ hst htu) hrest

theorem Keeps.bind (htrans : ∀ s t u, R s t → R t u → R s u) (hsound : ∀ s t, R s t → I t)
    {Q' : β → σ → Prop} {f : α → σ → Outcome σ β} (ho : o.Keeps I R Q s)
    (hf : ∀ a t, I t → Q a t → (f a t).Keeps I R Q' t) : (o.bind f).Keeps I R Q' s := by
  induction ho with
  | done hst ha => exact (hf _ _ (hsound _ _ hst) ha).of_earlier htrans hst
  | paused hst _ ih => exact .paused hst ih

theorem Keeps.imp {Q' : α → σ → Prop} (himp : ∀ a t, Q a t → Q' a t) (ho : o.Keeps I R Q s) :
    o.Keeps I R Q' s := by
  induction ho with
  | done hst ha => exact .done hst (himp _ _ ha)
  | paused hst _ ih => exact .paused hst ih

theorem Keeps.run (htrans : ∀ s t u, R s t → R t u → R s u) (hsound : ∀ s t, R s t → I t)
    (ho : o.Keeps I R Q s) : R s o.run.2 ∧ Q o.run.1 o.run.2 := by
  induction ho with
  | done hst ha => exact ⟨hst, ha⟩
  | paused hst _ ih =>
    obtain ⟨htu, ha⟩ := ih _ (hsound _ _ hst)
    exact ⟨htrans _ _ _ hst htu, ha⟩

theorem keeps_flow_bind (htrans : ∀ s t u, R s t → R t u → R s u)
    (hsound : ∀ s t, R s t → I t) {Q' : β → σ → Prop} {m : Flow σ α} {f : α → Flow σ β}
    (hm : (m s).Keeps I R Q s) (hf : ∀ a t, I t → Q a t → (f a t).Keeps I R Q' t) :
    ((m >>= f) s).Keeps I R Q' s := hm.bind htrans hsound hf

/-- Where a computation stands, it has kept its promise or will. -/
def Fits (I : σ → Prop) (R : σ → σ → Prop) (Q : α → σ → Prop) (s : σ) : Outcome σ α → Prop
  | .done a _ => Q a s
  | .paused _ rest => ∀ u, I u → (rest u).Keeps I R Q u

theorem Keeps.fits (ho : o.Keeps I R Q s) : o.Fits I R Q o.state := by
  cases ho with
  | done _ ha => exact ha
  | paused _ hrest => exact hrest

theorem turns_run (o : Outcome σ α) :
    Relation.ReflTransGen Turn (o.state, o) (o.run.2, .done o.run.1 o.run.2) := by
  induction o with
  | done a t => exact .refl
  | paused t rest ih => exact .head (.resume t t rest) (ih t)

theorem turns_waiting (m : Flow σ α) (s u : σ) :
    Relation.ReflTransGen Turn (s, .paused u fun v => m v)
      ((Flow.run m s).2, .done (Flow.run m s).1 (Flow.run m s).2) :=
  .head (.resume s u fun v => m v) (m s).turns_run

/-- From any state a computation comes to an end if nobody else goes on. -/
theorem exists_turns (s : σ) (o : Outcome σ α) :
    ∃ t o', Relation.ReflTransGen Turn (s, o) (t, o') ∧ o'.result?.isSome = true := by
  cases o with
  | done a t => exact ⟨s, .done a t, .refl, rfl⟩
  | paused u rest => exact ⟨_, _, .head (.resume s u rest) (rest s).turns_run, rfl⟩

end Outcome

/-- One of several takes a turn, and the others stay as they are. -/
inductive OneTurn {σ μ : Type} (r : σ × μ → σ × μ → Prop) :
    σ × List μ → σ × List μ → Prop where
  | head {s t : σ} {a b : μ} (h : r (s, a) (t, b)) (l : List μ) :
    OneTurn r (s, a :: l) (t, b :: l)
  | tail (a : μ) {s t : σ} {l l' : List μ} (h : OneTurn r (s, l) (t, l')) :
    OneTurn r (s, a :: l) (t, a :: l')

namespace OneTurn
variable {σ μ τ : Type} {r : σ × μ → σ × μ → Prop} {s t : σ} {a b : μ} {l l' : List μ}

theorem turns_head (h : Relation.ReflTransGen r (s, a) (t, b)) (l : List μ) :
    Relation.ReflTransGen (OneTurn r) (s, a :: l) (t, b :: l) :=
  h.lift (fun x => (x.1, x.2 :: l)) fun _ _ hstep => .head hstep l

theorem turns_tail (a : μ) (h : Relation.ReflTransGen (OneTurn r) (s, l) (t, l')) :
    Relation.ReflTransGen (OneTurn r) (s, a :: l) (t, a :: l') :=
  h.lift (fun x => (x.1, a :: x.2)) fun _ _ hstep => .tail a hstep

/-- If each can come to an end alone, they all can one after the other. -/
theorem exists_turns {p : μ → Prop}
    (hone : ∀ s a, ∃ t b, Relation.ReflTransGen r (s, a) (t, b) ∧ p b) (s : σ) (l : List μ) :
    ∃ t l', Relation.ReflTransGen (OneTurn r) (s, l) (t, l') ∧ ∀ b ∈ l', p b := by
  induction l generalizing s with
  | nil => exact ⟨s, [], .refl, nofun⟩
  | cons a l ih =>
    obtain ⟨t, b, hhead, hb⟩ := hone s a
    obtain ⟨u, l', htail, hl'⟩ := ih t
    exact ⟨u, b :: l', (turns_head hhead l).trans (turns_tail b htail),
      List.forall_mem_cons.mpr ⟨hb, hl'⟩⟩

end OneTurn

/-- Turns from sound states make allowed changes and keep what holds of whoever takes them; allowed
changes keep what holds of the others. -/
structure Preserves {σ μ τ : Type} (I : σ → Prop) (R : σ → σ → Prop)
    (r : σ × μ → σ × μ → Prop) (P : τ → σ → μ → Prop) : Prop where
  own {x : τ} {s t : σ} {a b : μ} (hs : I s) (ha : P x s a) (hr : r (s, a) (t, b)) :
    R s t ∧ P x t b
  others {x : τ} {s t : σ} {a : μ} (hst : R s t) (ha : P x s a) : P x t a

namespace Preserves
variable {σ μ τ α : Type} {I : σ → Prop} {R : σ → σ → Prop} {r : σ × μ → σ × μ → Prop}
  {P : τ → σ → μ → Prop}

/-- A turn of a computation that keeps a promise keeps the promises of all. -/
theorem turn {Q : τ → α → σ → Prop} (hQ : ∀ {x s t a}, R s t → Q x a s → Q x a t) :
    Preserves I R Outcome.Turn fun x s (o : Outcome σ α) => o.Fits I R (Q x) s where
  own := by
    intro x s t o o' hs ho hr
    cases hr with
    | resume s u rest => exact ⟨(ho s hs).state, (ho s hs).fits⟩
  others := by
    rintro x s t o hst ho
    cases o with
    | done a u => exact hQ hst ho
    | paused u rest => exact ho

theorem all (hP : Preserves I R r P) :
    Preserves I R (OneTurn r) fun xs s l => List.Forall₂ (fun x a => P x s a) xs l where
  own := by
    intro xs s t l l' hs hl hr
    induction hl generalizing l' with
    | nil => cases hr
    | cons ha hl ih =>
      cases hr with
      | head hr l =>
        obtain ⟨hst, hb⟩ := hP.own hs ha hr
        exact ⟨hst, .cons hb (hl.imp fun _ _ => hP.others hst)⟩
      | tail a hr =>
        obtain ⟨hst, hl'⟩ := ih hr
        exact ⟨hst, .cons (hP.others hst ha) hl'⟩
  others := fun hst hl => hl.imp fun _ _ => hP.others hst

theorem turns (hP : Preserves I R r P) (hrefl : ∀ s, I s → R s s)
    (htrans : ∀ s t u, R s t → R t u → R s u) (hsound : ∀ s t, R s t → I t) {x : τ} {s t : σ}
    {a b : μ} (hs : I s) (ha : P x s a) (hr : Relation.ReflTransGen r (s, a) (t, b)) :
    R s t ∧ P x t b := by
  generalize hc : (t, b) = c at hr
  induction hr generalizing t b with
  | refl =>
    cases hc
    exact ⟨hrefl s hs, ha⟩
  | tail _ hstep ih =>
    subst hc
    rename_i c _
    obtain ⟨hst, hb⟩ := ih (t := c.1) (b := c.2) rfl
    obtain ⟨htu, hc⟩ := hP.own (hsound _ _ hst) hb hstep
    exact ⟨htrans _ _ _ hst htu, hc⟩

end Preserves

end TemplateHost
