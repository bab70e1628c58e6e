import TemplateHost.Code.Source

/-!
# Running code

What code gives on a store and leaves of it, from what its parts give and leave. A list of
statements stops at the first that fails; what the statements before it did stays.
-/
namespace TemplateHost.Run
variable {α β : Type} {s t : Store}

/-- What code gives on a store, and the store that it leaves. -/
def on (m : Run α) (s : Store) : Except Fault α × Store := m.run.run s

@[simp] theorem on_pure (a : α) (s : Store) : on (pure a) s = (.ok a, s) := rfl

@[simp] theorem on_get (s : Store) : on get s = (.ok s, s) := rfl

@[simp] theorem on_setGlobal (k : ScopeId) (name : String) (v : Value) (s : Store) :
    on (setGlobal k name v) s = (.ok (), s.setGlobal k name v) := rfl

@[simp] theorem on_add (o : Object) (s : Store) : on (add o) s = (.ok (s.add o).1, (s.add o).2) :=
  rfl

@[simp] theorem on_global? (k : ScopeId) (name : String) (s : Store) :
    on (global? k name) s = (.ok ((s.scope k).get? name), s) := rfl

@[simp] theorem on_describer (s : Store) : on describer s = (.ok s.describer, s) := rfl

@[simp] theorem on_ofExcept (r : Except Fault α) (s : Store) : on (ofExcept r) s = (r, s) := by
  cases r <;> rfl

theorem on_bind (m : Run α) (f : α → Run β) (s : Store) :
    on (m >>= f) s = match on m s with
      | (.ok a, t) => on (f a) t
      | (.error e, t) => (.error e, t) := by
  change StateT.run (ExceptT.run m >>= ExceptT.bindCont f) s = _
  rw [StateT.run_bind]
  change StateT.run (ExceptT.bindCont f (on m s).1) (on m s).2 = _
  cases on m s with
  | mk r t =>
    cases r with
    | ok a => rfl
    | error e => rfl

theorem on_global (k : ScopeId) (name : String) (s : Store) :
    on (global k name) s = (match (s.scope k).get? name with
      | some v => .ok v
      | none => .error (.undefinedName name), s) := by
  unfold global
  rw [on_bind, on_global?]
  dsimp only
  cases (s.scope k).get? name <;> rfl

theorem on_global_of_some {k : ScopeId} {name : String} {v : Value}
    (h : (s.scope k).get? name = some v) : on (global k name) s = (.ok v, s) := by
  rw [on_global, h]

@[simp] theorem on_setMember (owner : Value) (name : String) (v : Value) (s : Store) :
    on (setMember owner name v) s = match s.setMember owner name v with
      | .ok t => (.ok (), t)
      | .error f => (.error f, s) := by
  unfold setMember
  rw [on_bind, on_get]
  dsimp only
  rw [on_bind, on_ofExcept]
  cases s.setMember owner name v <;> rfl

theorem on_bind_ok {m : Run α} {a : α} (hm : on m s = (.ok a, t)) (f : α → Run β) :
    on (m >>= f) s = on (f a) t := by
  rw [on_bind, hm]

theorem on_bind_error {m : Run α} {e : Fault} (hm : on m s = (.error e, t)) (f : α → Run β) :
    on (m >>= f) s = (.error e, t) := by
  rw [on_bind, hm]

theorem kept_bind {R : Store → Store → Prop} (htrans : ∀ {s t u}, R s t → R t u → R s u) {m : Run α}
    {f : α → Run β} (hm : ∀ s, R s (on m s).2) (hf : ∀ a s, R s (on (f a) s).2) (s : Store) :
    R s (on (m >>= f) s).2 := by
  have hfirst := hm s
  rw [on_bind]
  cases hrun : on m s with
  | mk r t =>
    rw [hrun] at hfirst
    cases r with
    | ok a => exact htrans hfirst (hf a t)
    | error e => exact hfirst

section Kept
variable {R : Store → Store → Prop} (hrefl : ∀ s, R s s)
  (htrans : ∀ {s t u}, R s t → R t u → R s u) {ι : Type} {l : List ι}
include hrefl htrans

theorem kept_forM {f : ι → Run PUnit} (hf : ∀ x ∈ l, ∀ s, R s (on (f x) s).2) (s : Store) :
    R s (on (l.forM f) s).2 := by
  induction l generalizing s with
  | nil => exact hrefl s
  | cons x r ih =>
    exact kept_bind (R := R) htrans (hf x List.mem_cons_self)
      (fun _ => ih fun y hy => hf y (List.mem_cons_of_mem _ hy)) s

theorem kept_foldlM {f : α → ι → Run α} (hf : ∀ a, ∀ x ∈ l, ∀ s, R s (on (f a x) s).2) (a : α)
    (s : Store) : R s (on (l.foldlM f a) s).2 := by
  induction l generalizing a s with
  | nil => exact hrefl s
  | cons x r ih =>
    rw [List.foldlM_cons]
    exact kept_bind (R := R) htrans (hf a x List.mem_cons_self)
      (fun b => ih (fun c y hy => hf c y (List.mem_cons_of_mem _ hy)) b) s

theorem kept_mapM {f : ι → Run α} (hf : ∀ x, ∀ s, R s (on (f x) s).2) (l : List ι) (s : Store) :
    R s (on (l.mapM f) s).2 := by
  induction l generalizing s with
  | nil => exact hrefl s
  | cons x r ih =>
    rw [List.mapM_cons]
    refine kept_bind (R := R) htrans (hf x) (fun a => ?_) s
    refine kept_bind (R := R) htrans ih fun as t => ?_
    exact hrefl t

end Kept

theorem on_discard (m : Run α) (s : Store) :
    on (discard m) s = ((on m s).1.map fun _ => ⟨⟩, (on m s).2) := by
  change on (m >>= fun _ => pure PUnit.unit) s = _
  rw [on_bind]
  cases on m s with
  | mk r t => cases r <;> rfl

@[simp] theorem on_textOf (v : Value) (s : Store) :
    on (textOf v) s = (Library.textOf s.describer v, s) := by
  unfold textOf
  rw [on_bind, on_describer]
  exact on_ofExcept _ s

theorem on_forM_cons {ι : Type} (f : ι → Run PUnit) (x : ι) (r : List ι) (s : Store) :
    on ((x :: r).forM f) s = match on (f x) s with
      | (.ok _, t) => on (r.forM f) t
      | (.error e, t) => (.error e, t) := by
  change on (f x >>= fun _ => r.forM f) s = _
  rw [on_bind]
  cases on (f x) s with
  | mk q t => cases q <;> rfl

theorem on_forM_singleton {ι : Type} (f : ι → Run PUnit) (x : ι) (s : Store) :
    on ([x].forM f) s = on (f x) s := by
  rw [on_forM_cons]
  cases on (f x) s with
  | mk q t => cases q <;> rfl

theorem on_forM_append {ι : Type} (f : ι → Run PUnit) (l r : List ι) (s : Store) :
    on ((l ++ r).forM f) s = match on (l.forM f) s with
      | (.ok _, t) => on (r.forM f) t
      | (.error e, t) => (.error e, t) := by
  induction l generalizing s with
  | nil => rfl
  | cons x l ih =>
    rw [List.cons_append, on_forM_cons, on_forM_cons]
    cases on (f x) s with
    | mk q t =>
      cases q with
      | ok a => exact ih t
      | error e => rfl

theorem on_forM_error {ι : Type} {f : ι → Run PUnit} {l : List ι} {e : Fault}
    (h : on (l.forM f) s = (.error e, t)) :
    ∃ done x rest u, l = done ++ x :: rest ∧ on (done.forM f) s = (.ok ⟨⟩, u) ∧
      on (f x) u = (.error e, t) := by
  induction l generalizing s with
  | nil => cases h
  | cons x r ih =>
    rw [on_forM_cons] at h
    cases hx : on (f x) s with
    | mk q u =>
      rw [hx] at h
      cases q with
      | error d =>
        obtain rfl : d = e := by simpa using congrArg Prod.fst h
        exact ⟨[], x, r, s, rfl, rfl, hx.trans (by simpa using h)⟩
      | ok a =>
        obtain ⟨done, y, rest, v, rfl, hdone, hy⟩ := ih h
        refine ⟨x :: done, y, rest, v, rfl, ?_, hy⟩
        rw [on_forM_cons, hx]
        exact hdone

/-- Where a statement fails, those after it do not matter. -/
theorem on_forM_stop {ι : Type} {f : ι → Run PUnit} {done : List ι} {x : ι} {u : Store} {e : Fault}
    (hdone : on (done.forM f) s = (.ok ⟨⟩, u)) (hx : on (f x) u = (.error e, t)) (rest : List ι) :
    on ((done ++ x :: rest).forM f) s = (.error e, t) := by
  rw [on_forM_append, hdone]
  dsimp only
  rw [on_forM_cons, hx]

end TemplateHost.Run
