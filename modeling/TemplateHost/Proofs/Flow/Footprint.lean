import TemplateHost.Proofs.Flow.Interleaving
import TemplateHost.Proofs.Flow.Interruption

/-!
# Footprints

What the last stride of a computation does may depend on how the computation ends; no other stride
leaves a mark. Where computations take turns, each mark is then one that a computation which is done
accounts for, whatever the order was.
-/
namespace TemplateHost

namespace Outcome
variable {σ α β : Type} {R : σ → σ → Prop} {E : α → σ → σ → Prop} {s : σ} {o : Outcome σ α}

/-- Whatever others do, every stride is within a relation, save that the last one is within one that
the result tells. -/
inductive Ends (R : σ → σ → Prop) (E : α → σ → σ → Prop) : σ → Outcome σ α → Prop where
  | done {s t : σ} {a : α} (hst : E a s t) : Ends R E s (.done a t)
  | paused {s t : σ} {rest : σ → Outcome σ α} (hst : R s t) (hrest : ∀ u, Ends R E u (rest u)) :
    Ends R E s (.paused t rest)

theorem Ends.bind_done (ho : o.Ends R E s) (g : α → β) {F : β → σ → σ → Prop}
    (hF : ∀ a s t, E a s t → F (g a) s t) :
    (o.bind fun a t => .done (g a) t).Ends R F s := by
  induction ho with
  | done hst => exact .done (hF _ _ _ hst)
  | paused hst _ ih => exact .paused hst ih

/-- The last stride may have begun earlier. -/
theorem Ends.of_earlier [IsTrans σ R] (hE : ∀ a s t u, R s t → E a t u → E a s u) {t : σ}
    (hst : R s t) (ho : o.Ends R E t) : o.Ends R E s := by
  cases ho with
  | done htu => exact .done (hE _ s t _ hst htu)
  | paused htu hrest => exact .paused (trans_of R hst htu) hrest

end Outcome

namespace Flow
variable {σ ε α β : Type} {R : σ → σ → Prop} {E : Except ε β → σ → σ → Prop}

/-- Whatever others do, the last stride of a computation that an error may end is within a relation
that the result tells, and the others within one and the same. -/
structure Ends (R : σ → σ → Prop) (E : Except ε α → σ → σ → Prop) (m : ExceptT ε (Flow σ) α) :
    Prop where
  strides (s : σ) : (ExceptT.run m s).Ends R E s

/-- What comes first must not tell by its strides how all will end. -/
theorem Within.ends_bind [IsTrans σ R] (hearlier : ∀ r s t u, R s t → E r t u → E r s u)
    (herror : ∀ e s t, R s t → E (.error e) s t) {m : ExceptT ε (Flow σ) α}
    {f : α → ExceptT ε (Flow σ) β} (hm : Within R m) (hf : ∀ a, Ends R E (f a)) :
    Ends R E (m >>= f) := by
  constructor
  intro s
  change ((ExceptT.run m s).bind fun r t => ExceptT.bindCont f r t).Ends R E s
  have hlast (r : Except ε α) (u v : σ) (huv : R u v) :
      (ExceptT.bindCont f r v).Ends R E u := by
    cases r with
    | ok a => exact ((hf a).strides v).of_earlier hearlier huv
    | error e => exact .done (herror e u v huv)
  have hwithin := hm.strides s
  generalize ExceptT.run m s = o at hwithin
  induction o generalizing s with
  | done r t => exact hlast r s t hwithin
  | paused t rest ih => exact .paused hwithin.1 fun u => ih u u (hwithin.2 u)

theorem Ends.result {γ : Type} {m : ExceptT ε (Flow σ) β} (hm : Ends R E m)
    (g : Except ε β → γ) {F : γ → σ → σ → Prop} (hF : ∀ r s t, E r s t → F (g r) s t) (s : σ) :
    ((do return g (← ExceptT.run m) : Flow σ γ) s).Ends R F s :=
  (hm.strides s).bind_done g hF

end Flow

/-- Whoever takes a turn keeps what holds of it, and from then on accounts for each mark that the
turn leaves. -/
structure Accounts {σ μ τ π : Type} (I : σ → Prop) (unmarked : σ → σ → π → Prop)
    (r : σ × μ → σ × μ → Prop) (P : τ → μ → Prop) (claims : τ → μ → π → Prop) : Prop where
  turn {x : τ} {s t : σ} {a b : μ} (hs : I s) (ha : P x a) (hr : r (s, a) (t, b)) :
    I t ∧ P x b ∧ ∀ p, (claims x a p → claims x b p) ∧ (unmarked s t p ∨ claims x b p)

namespace Accounts
variable {σ μ τ π α : Type} {I : σ → Prop} {unmarked : σ → σ → π → Prop}
  {r : σ × μ → σ × μ → Prop} {P : τ → μ → Prop} {claims : τ → μ → π → Prop}

/-- Where a computation stands, its last stride is still to come, or its result is there. -/
def Open (R : σ → σ → Prop) (E : α → σ → σ → Prop) : Outcome σ α → Prop
  | .done _ _ => True
  | .paused _ rest => ∀ u, (rest u).Ends R E u

theorem outcome {V : τ → Prop} {R : τ → σ → σ → Prop} {E : τ → α → σ → σ → Prop}
    {told : τ → α → π → Prop}
    (hR : ∀ {x s t}, V x → I s → R x s t → I t ∧ ∀ p, unmarked s t p)
    (hE : ∀ {x a s t}, V x → I s → E x a s t → I t ∧ ∀ p, unmarked s t p ∨ told x a p) :
    Accounts I unmarked Outcome.Turn (fun x o => V x ∧ Open (R x) (E x) o)
      fun x o p => ∃ a, o.result? = some a ∧ told x a p where
  turn := by
    intro x s t o o' hs ⟨hx, ho⟩ hr
    cases hr with
    | resume s u rest =>
      have hends := ho s
      generalize rest s = o at hends
      cases hends with
      | done hst =>
        obtain ⟨hv, hmarks⟩ := hE hx hs hst
        exact ⟨hv, ⟨hx, trivial⟩, fun p => ⟨nofun, (hmarks p).imp_right fun htold =>
          ⟨_, rfl, htold⟩⟩⟩
      | paused hst hrest =>
        obtain ⟨hv, hmarks⟩ := hR hx hs hst
        exact ⟨hv, ⟨hx, hrest⟩, fun p => ⟨nofun, Or.inl (hmarks p)⟩⟩

theorem all (h : Accounts I unmarked r P claims) :
    Accounts I unmarked (OneTurn r) (fun xs l => List.Forall₂ P xs l)
      fun xs l p => ∃ e ∈ xs.zip l, claims e.1 e.2 p where
  turn := by
    intro xs s t l l' hs hl hr
    induction hl generalizing l' with
    | nil => cases hr
    | cons ha hl ih =>
      cases hr with
      | head hr l =>
        obtain ⟨ht, hb, hmarks⟩ := h.turn hs ha hr
        refine ⟨ht, .cons hb hl, fun p => ?_⟩
        simp only [List.zip_cons_cons, List.exists_mem_cons_iff]
        exact ⟨Or.imp_left (hmarks p).1, (hmarks p).2.imp_right Or.inl⟩
      | tail a hr =>
        obtain ⟨ht, hl', hmarks⟩ := ih hr
        refine ⟨ht, .cons ha hl', fun p => ?_⟩
        simp only [List.zip_cons_cons, List.exists_mem_cons_iff]
        exact ⟨Or.imp_right (hmarks p).1, (hmarks p).2.imp_right Or.inr⟩

/-- After any turns each mark is accounted for. -/
theorem turns (h : Accounts I unmarked r P claims) (hrefl : ∀ s p, unmarked s s p)
    (htrans : ∀ {s t u p}, unmarked s t p → unmarked t u p → unmarked s u p) {x : τ} {s t : σ}
    {a b : μ} (hs : I s) (ha : P x a) (hr : Relation.ReflTransGen r (s, a) (t, b)) :
    I t ∧ P x b ∧ ∀ p, unmarked s t p ∨ claims x b p := by
  generalize hc : (t, b) = c at hr
  induction hr generalizing t b with
  | refl =>
    cases hc
    exact ⟨hs, ha, fun p => Or.inl (hrefl s p)⟩
  | tail _ hstep ih =>
    subst hc
    rename_i c _
    obtain ⟨ht, hb, hmarks⟩ := ih (t := c.1) (b := c.2) rfl
    obtain ⟨hu, hc, hmore⟩ := h.turn ht hb hstep
    refine ⟨hu, hc, fun p => ?_⟩
    rcases hmarks p with hold | hclaim
    · exact (hmore p).2.imp_left (htrans hold)
    · exact Or.inr ((hmore p).1 hclaim)

end Accounts

end TemplateHost
