import TemplateHost.Code.Support
import TemplateHost.Proofs.Code.Interface

/-!
# Installing the support code

The parts of the support code bind names to new objects and to constants. When the last of them has
run in a scope where nothing but support code has, even partly, the interface is in place, only its
own name leads to it, and the registries are empty.
-/
namespace TemplateHost

namespace Store
variable {s t u : Store} {k : ScopeId} {P : String → Prop} {name : String} {form : Form}

theorem bare_ofForm (form : Form) (n : String) (i : ObjectId) :
    (Object.ofForm form).members.get? n ≠ some (.object i) := nofun

/-- A scope that code can run in, and in which everything that is referred to is there. -/
structure Ground (k : ScopeId) (s : Store) : Prop where
  scope : k < s.scopes.size
  builtins : ((s.scope k).get? Run.builtinsName).isSome = true
  globals (n : String) (i : ObjectId) :
    (s.scope k).get? n = some (.object i) → i < s.objects.size
  members (j : ObjectId) (o : Object) (n : String) (i : ObjectId) :
    s.object? j = some o → o.members.get? n = some (.object i) → i < s.objects.size

theorem Ground.add (h : s.Ground k) {o : Object}
    (ho : ∀ n i, o.members.get? n ≠ some (.object i)) : (s.add o).2.Ground k where
  scope := h.scope
  builtins := h.builtins
  globals n i hi := by
    rw [size_add]
    exact Nat.lt_succ_of_lt (h.globals n i hi)
  members j p n i hp hi := by
    rw [size_add]
    rcases object?_add_cases hp with hold | ⟨-, rfl⟩
    · exact Nat.lt_succ_of_lt (h.members j p n i hold hi)
    · exact absurd hi (ho n i)

theorem Ground.setGlobal (h : s.Ground k) (n : String) {v : Value}
    (hv : ∀ i, v = .object i → i < s.objects.size) : (s.setGlobal k n v).Ground k where
  scope := by
    rw [size_scopes_setGlobal]
    exact h.scope
  builtins := by
    rw [scope_setGlobal h.scope]
    by_cases hn : Run.builtinsName = n
    · rw [hn, Table.get?_set_self]
      rfl
    · rw [Table.get?_set_ne _ hn]
      exact h.builtins
  globals m i hi := by
    rw [scope_setGlobal h.scope] at hi
    by_cases hm : m = n
    · rw [hm, Table.get?_set_self] at hi
      exact hv i (Option.some.inj hi)
    · rw [Table.get?_set_ne _ hm] at hi
      exact h.globals m i hi
  members := h.members

theorem Ground.withMember (h : s.Ground k) (j : ObjectId) (n : String) {v : Value}
    (hv : ∀ i, v = .object i → i < s.objects.size) : (s.withMember j n v).Ground k where
  scope := h.scope
  builtins := h.builtins
  globals m i hi := by
    rw [size_withMember]
    exact h.globals m i hi
  members l o m i ho hi := by
    rw [size_withMember]
    rcases member_withMember_cases ho hi with heq | ⟨p, hp, hold⟩
    · exact hv i heq.symm
    · exact h.members l p m i hp hold

def withMembers (s : Store) (i : ObjectId) (l : List (String × Value)) : Store :=
  l.foldl (fun s e => s.withMember i e.1 e.2) s

theorem Ground.withMembers (h : s.Ground k) (i : ObjectId) {l : List (String × Value)}
    (hl : ∀ e ∈ l, ∀ j, e.2 = .object j → j < s.objects.size) : (s.withMembers i l).Ground k := by
  induction l generalizing s with
  | nil => exact h
  | cons e r ih =>
    refine ih (h.withMember i e.1 (hl e List.mem_cons_self)) fun x hx j hj => ?_
    rw [size_withMember]
    exact hl x (List.mem_cons_of_mem _ hx) j hj

@[simp] theorem scope_withMembers (s : Store) (i : ObjectId) (l : List (String × Value)) :
    (s.withMembers i l).scope = s.scope := by
  induction l generalizing s with
  | nil => rfl
  | cons e r ih => exact ih _

@[simp] theorem size_withMembers (s : Store) (i : ObjectId) (l : List (String × Value)) :
    (s.withMembers i l).objects.size = s.objects.size ∧
      (s.withMembers i l).scopes = s.scopes := by
  induction l generalizing s with
  | nil => exact ⟨rfl, rfl⟩
  | cons e r ih => exact ⟨(ih _).1.trans (size_withMember ..), (ih _).2⟩

theorem object?_withMembers_ne (s : Store) {i j : ObjectId} (hj : j ≠ i)
    (l : List (String × Value)) : (s.withMembers i l).object? j = s.object? j := by
  induction l generalizing s with
  | nil => rfl
  | cons e r ih => exact (ih _).trans (object?_withMember_ne s hj ..)

theorem object?_withMembers_self {i : ObjectId} {o : Object} (ho : s.object? i = some o)
    {l : List (String × Value)} {g : String → Option Value} (hl : ∀ e ∈ l, g e.1 = some e.2) :
    ∃ p, (s.withMembers i l).object? i = some p ∧
      ∀ n, p.members.get? n = if n ∈ l.map Prod.fst then g n else o.members.get? n := by
  induction l generalizing s o with
  | nil => exact ⟨o, ho, fun n => by simp⟩
  | cons e r ih =>
    have hself := object?_withMember_self s i e.1 e.2
    rw [ho] at hself
    obtain ⟨p, hp, hmembers⟩ := ih hself fun x hx => hl x (List.mem_cons_of_mem _ hx)
    refine ⟨p, hp, fun n => ?_⟩
    rw [hmembers, List.map_cons]
    by_cases hr : n ∈ r.map Prod.fst
    · rw [if_pos hr, if_pos (List.mem_cons_of_mem _ hr)]
    · rw [if_neg hr]
      by_cases hn : n = e.1
      · rw [if_pos (hn ▸ List.mem_cons_self), hn, hl e List.mem_cons_self]
        exact Table.get?_set_self ..
      · rw [if_neg fun hm => (List.mem_cons.mp hm).elim hn hr]
        exact Table.get?_set_ne _ hn _

theorem member_withMembers_cases {i j : ObjectId} {l : List (String × Value)} {p : Object}
    (h : (s.withMembers i l).object? j = some p) {n : String} {w : Value}
    (hw : p.members.get? n = some w) :
    (∃ e ∈ l, e.2 = w) ∨ ∃ o, s.object? j = some o ∧ o.members.get? n = some w := by
  induction l generalizing s with
  | nil => exact Or.inr ⟨p, h, hw⟩
  | cons e r ih =>
    rcases ih h with ⟨x, hx, heq⟩ | ⟨o, ho, ho'⟩
    · exact Or.inl ⟨x, List.mem_cons_of_mem _ hx, heq⟩
    · rcases member_withMember_cases ho ho' with heq | hold
      · exact Or.inl ⟨e, List.mem_cons_self, heq.symm⟩
      · exact Or.inr hold

theorem Holds.withMembers (h : s.Holds k name form) (i : ObjectId) (l : List (String × Value)) :
    (s.withMembers i l).Holds k name form := by
  induction l generalizing s with
  | nil => exact h
  | cons e r ih => exact ih (h.withMember i e.1 e.2)

/-- Names with some property are bound, to new objects or to constants. -/
inductive Lays (k : ScopeId) (P : String → Prop) (s : Store) : Store → Prop
  | start : Lays k P s s
  | object {t : Store} (h : Lays k P s t) {name : String} (hn : P name) {o : Object}
    (ho : ∀ n i, o.members.get? n ≠ some (.object i)) :
    Lays k P s ((t.add o).2.setGlobal k name (t.add o).1)
  | constant {t : Store} (h : Lays k P s t) {name : String} (hn : P name) {v : Value}
    (hv : ∀ i, v ≠ .object i) : Lays k P s (t.setGlobal k name v)

theorem Lays.trans (h₁ : s.Lays k P t) (h₂ : t.Lays k P u) : s.Lays k P u := by
  induction h₂ with
  | start => exact h₁
  | object _ hn ho ih => exact ih.object hn ho
  | constant _ hn hv ih => exact ih.constant hn hv

theorem Lays.size (h : s.Lays k P t) :
    s.objects.size ≤ t.objects.size ∧ t.scopes.size = s.scopes.size := by
  induction h with
  | start => exact ⟨Nat.le_refl _, rfl⟩
  | @object t _ name hn o ho ih =>
    refine ⟨Nat.le_trans ih.1 ?_, ?_⟩
    · change t.objects.size ≤ (t.add o).2.objects.size
      rw [size_add]
      exact Nat.le_succ _
    · rw [size_scopes_setGlobal]
      exact ih.2
  | constant _ hn hv ih =>
    rw [size_scopes_setGlobal]
    exact ih

theorem Lays.ground (h : s.Lays k P t) (hs : s.Ground k) : t.Ground k := by
  induction h with
  | start => exact hs
  | @object t _ name hn o ho ih =>
    refine (ih.add ho).setGlobal name fun i hi => ?_
    obtain rfl := Value.object.inj hi
    rw [size_add]
    exact Nat.lt_succ_self _
  | constant _ hn hv ih => exact ih.setGlobal _ fun i hi => absurd hi (hv i)

theorem Lays.get? (h : s.Lays k P t) (hk : k < s.scopes.size) {n : String} (hn : ¬P n) :
    (t.scope k).get? n = (s.scope k).get? n := by
  induction h with
  | start => rfl
  | @object t h name hname o ho ih =>
    have hlt : k < (t.add o).2.scopes.size := h.size.2.symm ▸ hk
    have hne : n ≠ name := by
      rintro rfl
      exact hn hname
    rw [scope_setGlobal hlt, Table.get?_set_ne _ hne]
    exact ih
  | @constant t h name hname v hv ih =>
    have hlt : k < t.scopes.size := h.size.2.symm ▸ hk
    have hne : n ≠ name := by
      rintro rfl
      exact hn hname
    rw [scope_setGlobal hlt, Table.get?_set_ne _ hne]
    exact ih

theorem Lays.object? (h : s.Lays k P t) {i : ObjectId} {o : Object} (ho : s.object? i = some o) :
    t.object? i = some o := by
  induction h with
  | start => exact ho
  | object _ hn hbare ih => exact object?_add ih _
  | constant _ hn hv ih => exact ih

theorem Lays.holds (h : s.Lays k P t) (hk : k < s.scopes.size) (hs : s.Holds k name form)
    (hn : ¬P name) : t.Holds k name form := by
  obtain ⟨i, o, hi, ho, hform⟩ := hs
  exact ⟨i, o, (h.get? hk hn).trans hi, h.object? ho, hform⟩

end Store

namespace Run
variable {α β : Type} {k : ScopeId} {P : String → Prop}

/-- Code that binds names with some property, to new objects or to constants. -/
def Founds (k : ScopeId) (P : String → Prop) (m : Run α) : Prop :=
  ∀ s : Store, s.Lays k P (on m s).2

theorem Founds.of_eq {m : Run α} (h : ∀ s, (on m s).2 = s) : Founds k P m := by
  intro s
  rw [h]
  exact .start

theorem Founds.bind {m : Run α} {f : α → Run β} (hm : Founds k P m) (hf : ∀ a, Founds k P (f a)) :
    Founds k P (m >>= f) :=
  kept_bind .trans hm hf

theorem Founds.forM {ι : Type} {f : ι → Run PUnit} {l : List ι}
    (hf : ∀ x ∈ l, Founds k P (f x)) : Founds k P (l.forM f) :=
  kept_forM (fun _ => .start) .trans hf

theorem Founds.mapM {ι : Type} {f : ι → Run β} (hf : ∀ x, Founds k P (f x)) (l : List ι) :
    Founds k P (l.mapM f) := kept_mapM (fun _ => .start) .trans hf l

theorem founds_setGlobal {name : String} (hn : P name) {v : Value} (hv : ∀ i, v ≠ .object i) :
    Founds k P (setGlobal k name v) :=
  fun _ => .constant .start hn hv

theorem founds_bindObject {name : String} (hn : P name) {o : Object}
    (ho : ∀ n i, o.members.get? n ≠ some (.object i)) : Founds k P (bindObject k name o) :=
  fun _ => .object .start hn ho

theorem founds_bindRoutines {routines : List Routine} (h : ∀ r ∈ routines, P r.name) :
    Founds k P (bindRoutines k routines) :=
  .forM fun r hr => founds_bindObject (h r hr) (Store.bare_ofForm _)

theorem founds_bindForeign {names : List (String × String)} (h : ∀ e ∈ names, P e.1) :
    Founds k P (bindForeign k names) :=
  .forM fun e he => founds_bindObject (h e he) (Store.bare_ofForm _)

theorem founds_global (name : String) : Founds k P (global k name) := by
  refine .of_eq fun s => ?_
  rw [on_global]

theorem founds_installNames : Founds k (fun _ => True) (installNames k) :=
  (founds_bindObject trivial (Store.bare_ofForm _)).bind fun _ =>
    founds_bindRoutines fun _ _ => trivial

theorem founds_installStrings : Founds k (· ≠ "provide") (installStrings k) :=
  (founds_bindForeign (by decide)).bind fun _ => founds_bindRoutines (by decide)

theorem founds_installCollections : Founds k (· ≠ "provide") (installCollections k) :=
  founds_bindRoutines (by decide)

theorem founds_installDirections : Founds k (· ≠ "provide") (installDirections k) :=
  (founds_bindForeign (by decide)).bind fun _ =>
    (founds_setGlobal (by decide) (by nofun)).bind fun _ =>
      (founds_setGlobal (by decide) (by nofun)).bind fun _ =>
        (founds_bindForeign (by decide)).bind fun _ => founds_bindRoutines (by decide)

theorem ofList_ne_object {l : List (String × Value)} (hl : ∀ e ∈ l, e.2.isPlain = true)
    (n : String) (i : ObjectId) : (Table.ofList l).get? n ≠ some (.object i) := by
  have hfold (m : Table String Value) (hm : m.get? n ≠ some (.object i)) :
      (l.foldl (fun t e => t.set e.1 e.2) m).get? n ≠ some (.object i) := by
    induction l generalizing m with
    | nil => exact hm
    | cons e r ih =>
      refine ih (fun x hx => hl x (List.mem_cons_of_mem _ hx)) _ ?_
      by_cases hn : n = e.1
      · rw [hn, Table.get?_set_self]
        have hne := Value.ne_object_of_isPlain (hl e List.mem_cons_self) i
        exact fun heq => hne (Option.some.inj heq)
      · rwa [Table.get?_set_ne _ hn]
  exact hfold .empty nofun

theorem founds_installContent : Founds k (· ≠ "provide") (installContent k) := by
  have hcontent (context : Safety) (base : Option ObjectId) :
      Founds k (· ≠ "provide")
        (bindObject k context.typeName (contentTypeObject context base)) := by
    refine founds_bindObject (by cases context <;> decide) (ofList_ne_object fun e he => ?_)
    rw [List.mem_singleton.mp he]
    cases context <;> rfl
  unfold installContent
  refine (founds_bindForeign (by decide)).bind fun _ => (founds_bindRoutines (by decide)).bind
    fun _ => (founds_bindObject (by decide) (Store.bare_ofForm _)).bind fun _ =>
      (founds_setGlobal (by decide) (by nofun)).bind fun _ =>
        (founds_setGlobal (by decide) (by nofun)).bind fun _ =>
          (founds_bindObject (by decide) (ofList_ne_object (by decide))).bind fun _ =>
            (Founds.of_eq fun _ => rfl).bind fun _ => (hcontent _ none).bind fun _ =>
              (Founds.forM fun context _ => hcontent context _).bind fun _ =>
                (Founds.mapM (fun _ => (founds_global _).bind fun _ => .of_eq fun _ => rfl) _).bind
                  fun _ => (founds_setGlobal (by decide) (by nofun)).bind fun _ =>
                    founds_bindRoutines (by decide)

section Holds
variable {s t : Store}

theorem on_bindRoutines_ok (k : ScopeId) (routines : List Routine) (s : Store) :
    on (bindRoutines k routines) s = (.ok (), (on (bindRoutines k routines) s).2) := by
  induction routines generalizing s with
  | nil => rfl
  | cons r rest ih =>
    let o := Object.ofForm (.routine r k)
    exact ih ((s.add o).2.setGlobal k r.name (s.add o).1)

theorem holds_bindRoutines (hk : k < s.scopes.size) {routines : List Routine}
    (hnodup : (routines.map Routine.name).Nodup) {r : Routine} (hr : r ∈ routines) :
    (on (bindRoutines k routines) s).2.Holds k r.name (.routine r k) := by
  induction routines generalizing s with
  | nil => cases hr
  | cons x rest ih =>
    rw [List.map_cons, List.nodup_cons] at hnodup
    let o := Object.ofForm (.routine x k)
    have hadd : k < (s.add o).2.scopes.size := hk
    have hlt : k < ((s.add o).2.setGlobal k x.name (s.add o).1).scopes.size := by
      rw [Store.size_scopes_setGlobal]
      exact hk
    change (on (bindRoutines k rest) ((s.add o).2.setGlobal k x.name (s.add o).1)).2.Holds
      k r.name (.routine r k)
    rcases List.mem_cons.mp hr with rfl | hmem
    · have hrest : Founds k (· ≠ r.name) (bindRoutines k rest) :=
        founds_bindRoutines fun y hy heq => hnodup.1 (heq ▸ List.mem_map_of_mem hy)
      refine (hrest _).holds hlt ⟨s.objects.size, o, ?_, ?_, rfl⟩ fun h => h rfl
      · rw [Store.scope_setGlobal hadd, Table.get?_set_self]
        rfl
      · exact Store.object?_add_new s o
    · exact ih hlt hnodup.2 hmem

theorem on_mapM_global_cases (k : ScopeId) (names : List String) (s : Store) :
    (∃ e, on (names.mapM fun name => do return (name, ← global k name)) s = (.error e, s)) ∨
      ∃ l, on (names.mapM fun name => do return (name, ← global k name)) s = (.ok l, s) ∧
        l.map Prod.fst = names ∧ ∀ e ∈ l, (s.scope k).get? e.1 = some e.2 := by
  induction names with
  | nil => exact Or.inr ⟨[], rfl, rfl, nofun⟩
  | cons n r ih =>
    rw [List.mapM_cons]
    cases hget : (s.scope k).get? n with
    | none =>
      have hn : on (do return (n, ← global k n)) s = (.error (.undefinedName n), s) := by
        rw [on_bind, on_global, hget]
      exact Or.inl ⟨_, on_bind_error hn _⟩
    | some v =>
      have hn : on (do return (n, ← global k n)) s = (.ok (n, v), s) :=
        on_bind_ok (on_global_of_some hget) _
      rw [on_bind_ok hn]
      rcases ih with ⟨e, he⟩ | ⟨l, hl, hnames, hall⟩
      · exact Or.inl ⟨e, on_bind_error he _⟩
      · refine Or.inr ⟨(n, v) :: l, on_bind_ok hl _, congrArg (n :: ·) hnames, fun x hx => ?_⟩
        rcases List.mem_cons.mp hx with rfl | hx
        · exact hget
        · exact hall x hx

end Holds

section Interface
variable {s t : Store}

theorem on_forM_setMember (i : ObjectId) (l : List (String × Value)) (s : Store) :
    on (l.forM fun e => setMember (.object i) e.1 e.2) s = (.ok (), s.withMembers i l) := by
  induction l generalizing s with
  | nil => rfl
  | cons e r ih => exact ih (s.withMember i e.1 e.2)

def interfaceRoutines : List Routine :=
  [.delegateKey, .library .templateId, .registerDelegate, .emptyTemplate, .selectDelegate]

/-- A store whose registries are empty, and in which those functions are bound. -/
def prepared (k : ScopeId) (s : Store) : Store :=
  (on (bindRoutines k interfaceRoutines)
    ((s.setGlobal k prioritiesName (.map [])).setGlobal k functionsName (.map []))).2

def gather (k : ScopeId) (soy : Value) : Run Unit := do
  let members ← interfaceNames.mapM fun name => do return (name, ← global k name)
  members.forM fun e => setMember soy e.1 e.2
  setGlobal k "soy" soy

theorem on_installInterface (k : ScopeId) (s : Store) :
    on (installInterface k) s = on (newNamespace k >>= gather k) (prepared k s) := by
  have hbind := on_bindRoutines_ok k interfaceRoutines
    ((s.setGlobal k prioritiesName (.map [])).setGlobal k functionsName (.map []))
  have hreset : on (resetRegistries k) s = (.ok (),
      (s.setGlobal k prioritiesName (.map [])).setGlobal k functionsName (.map [])) := rfl
  exact (on_bind_ok hreset _).trans (on_bind_ok hbind _)

theorem lays_prepared (k : ScopeId) (s : Store) : s.Lays k
    (fun n => n = prioritiesName ∨ n = functionsName ∨ n ∈ interfaceRoutines.map Routine.name)
    (prepared k s) := by
  have hreset : s.Lays k
      (fun n => n = prioritiesName ∨ n = functionsName ∨ n ∈ interfaceRoutines.map Routine.name)
      ((s.setGlobal k prioritiesName (.map [])).setGlobal k functionsName (.map [])) :=
    (Store.Lays.start.constant (Or.inl rfl) (by nofun)).constant (Or.inr (Or.inl rfl)) (by nofun)
  exact hreset.trans
    (founds_bindRoutines (fun r hr => Or.inr (Or.inr (List.mem_map_of_mem hr))) _)

theorem on_gather_error {v : Value} (hv : ∀ i, v ≠ .object i) (s : Store) :
    ∃ e, on (gather k v) s = (.error e, s) := by
  unfold gather
  rcases on_mapM_global_cases k interfaceNames s with ⟨e, he⟩ | ⟨l, hl, hnames, -⟩
  · exact ⟨e, on_bind_error he _⟩
  · cases l with
    | nil => cases hnames
    | cons x r =>
      have hset : on (setMember v x.1 x.2) s = (.error (s.refusal v x.1), s) := by
        rw [on_setMember]
        cases v with
        | object i => exact absurd rfl (hv i)
        | _ => rfl
      have hforM : on ((x :: r).forM fun e => setMember v e.1 e.2) s =
          (.error (s.refusal v x.1), s) := by
        rw [on_forM_cons, hset]
      rw [on_bind_ok hl]
      exact ⟨_, on_bind_error hforM _⟩

/-- What has been gathered, if all of it was there. -/
theorem on_gather_cases (i : ObjectId) (s : Store) :
    (∃ e, on (gather k (.object i)) s = (.error e, s)) ∨
      ∃ l, on (gather k (.object i)) s =
          (.ok (), (s.withMembers i l).setGlobal k "soy" (.object i)) ∧
        l.map Prod.fst = interfaceNames ∧ ∀ e ∈ l, (s.scope k).get? e.1 = some e.2 := by
  unfold gather
  rcases on_mapM_global_cases k interfaceNames s with ⟨e, he⟩ | ⟨l, hl, hnames, hall⟩
  · exact Or.inl ⟨e, on_bind_error he _⟩
  · refine Or.inr ⟨l, ?_, hnames, hall⟩
    rw [on_bind_ok hl, on_bind_ok (on_forM_setMember i l s)]
    rfl

/-- A store in which the interface is in place: an object of its own with what has been gathered. -/
def withInterface (k : ScopeId) (form : Form) (l : List (String × Value)) (u : Store) : Store :=
  ((u.add (.ofForm form)).2.withMembers u.objects.size l).setGlobal k "soy" (.object u.objects.size)

section WithInterface
variable {u : Store} {form : Form} {l : List (String × Value)}

theorem scope_withInterface (hk : k < u.scopes.size) :
    (withInterface k form l u).scope k = (u.scope k).set "soy" (.object u.objects.size) := by
  have hsize : k < ((u.add (.ofForm form)).2.withMembers u.objects.size l).scopes.size := by
    rw [(Store.size_withMembers ..).2]
    exact hk
  unfold withInterface
  rw [Store.scope_setGlobal hsize, Store.scope_withMembers]
  rfl

theorem size_scopes_withInterface : (withInterface k form l u).scopes.size = u.scopes.size := by
  unfold withInterface
  rw [Store.size_scopes_setGlobal, (Store.size_withMembers ..).2]
  rfl

theorem get?_withInterface (hk : k < u.scopes.size) {n : String} (hn : n ≠ "soy") :
    ((withInterface k form l u).scope k).get? n = (u.scope k).get? n := by
  rw [scope_withInterface hk, Table.get?_set_ne _ hn]

theorem holds_withInterface (hk : k < u.scopes.size) {n : String} {r : Routine} (hn : n ≠ "soy")
    (hr : u.Holds k n (.routine r k)) : (withInterface k form l u).Holds k n (.routine r k) :=
  ((hr.add _).withMembers _ _).setGlobal (by rwa [(Store.size_withMembers ..).2]) hn _

theorem holdsMember_withInterface (hall : ∀ e ∈ l, (u.scope k).get? e.1 = some e.2) {n : String}
    {r : Routine} (hn : n ∈ l.map Prod.fst) (hr : u.Holds k n (.routine r k)) :
    (withInterface k form l u).HoldsMember u.objects.size n (.routine r k) := by
  obtain ⟨p, hself, hmembers⟩ := Store.object?_withMembers_self
    (Store.object?_add_new u (.ofForm form)) hall
  obtain ⟨j, o, hj, ho, hform⟩ := hr
  refine ⟨p, j, o, hself, ?_, ?_, hform⟩
  · rw [hmembers, if_pos hn]
    exact hj
  · have hne : j ≠ u.objects.size := Nat.ne_of_lt (Store.lt_of_object? ho)
    exact (Store.object?_withMembers_ne _ hne l).trans (Store.object?_add ho _)

theorem ground_withInterface (hu : u.Ground k)
    (hall : ∀ e ∈ l, (u.scope k).get? e.1 = some e.2) : (withInterface k form l u).Ground k := by
  have hadd := hu.add (Store.bare_ofForm form)
  have hmembers := hadd.withMembers u.objects.size fun e he j hj =>
    hadd.globals e.1 j (hj ▸ hall e he)
  refine hmembers.setGlobal "soy" fun i hi => ?_
  rw [(Store.size_withMembers ..).1, Store.size_add, ← Value.object.inj hi]
  exact Nat.lt_succ_self _

/-- No member refers to the interface, since what was there before refers to what was there
before. -/
theorem ne_interface_of_member (hu : u.Ground k)
    (hall : ∀ e ∈ l, (u.scope k).get? e.1 = some e.2) {j : ObjectId} {o : Object} {n : String}
    (ho : (withInterface k form l u).object? j = some o) :
    o.members.get? n ≠ some (.object u.objects.size) := by
  intro hi
  rcases Store.member_withMembers_cases ho hi with ⟨e, he, heq⟩ | ⟨q, hq, hi'⟩
  · exact Nat.lt_irrefl _ (hu.globals e.1 _ ((hall e he).trans (congrArg some heq)))
  · rcases Store.object?_add_cases hq with hq' | ⟨-, rfl⟩
    · exact Nat.lt_irrefl _ (hu.members j q n _ hq' hi')
    · exact Store.bare_ofForm form n _ hi'

end WithInterface

/-- The interface is put in place, or the code fails with a namespace at most. -/
theorem installInterface_cases (k : ScopeId) (s : Store) :
    (∃ e t, on (installInterface k) s = (.error e, t) ∧
      (t = prepared k s ∨ ∃ form, t = ((prepared k s).add (.ofForm form)).2)) ∨
    ∃ form l, on (installInterface k) s = (.ok (), withInterface k form l (prepared k s)) ∧
      l.map Prod.fst = interfaceNames ∧
      ∀ e ∈ l, ((prepared k s).scope k).get? e.1 = some e.2 := by
  rw [on_installInterface]
  generalize prepared k s = u
  rcases on_newNamespace_cases k u with ⟨r, hr, hno⟩ | ⟨form, -, hnew⟩
  · cases r with
    | error e => exact Or.inl ⟨e, u, on_bind_error hr _, Or.inl rfl⟩
    | ok v =>
      obtain ⟨e, he⟩ := on_gather_error (k := k) (fun i h => hno i (h ▸ rfl)) u
      exact Or.inl ⟨e, u, (on_bind_ok hr _).trans he, Or.inl rfl⟩
  · rcases on_gather_cases (k := k) u.objects.size (u.add (.ofForm form)).2 with
      ⟨e, he⟩ | ⟨l, hl, hnames, hall⟩
    · exact Or.inl ⟨e, _, (on_bind_ok hnew _).trans he, Or.inr ⟨form, rfl⟩⟩
    · exact Or.inr ⟨form, l, (on_bind_ok hnew _).trans hl, hnames, hall⟩

theorem ground_installInterface (hs : s.Ground k) : (on (installInterface k) s).2.Ground k := by
  have hu := (lays_prepared k s).ground hs
  have hcases := installInterface_cases k s
  generalize prepared k s = u at hu hcases
  rcases hcases with ⟨e, t, he, ht⟩ | ⟨form, l, hl, -, hall⟩
  · rw [he]
    rcases ht with rfl | ⟨form, rfl⟩
    · exact hu
    · exact hu.add (Store.bare_ofForm form)
  · rw [hl]
    exact ground_withInterface hu hall

/-- What registering and selecting takes is in place, and the registries are empty. -/
theorem prepared_spec (hk : k < s.scopes.size) :
    (∀ r ∈ interfaceRoutines, (prepared k s).Holds k r.name (.routine r k)) ∧
      ((prepared k s).scope k).get? prioritiesName = some (.map []) ∧
      ((prepared k s).scope k).get? functionsName = some (.map []) := by
  have hk₁ : k < (s.setGlobal k prioritiesName (.map [])).scopes.size := by
    rw [Store.size_scopes_setGlobal]
    exact hk
  have hk₂ : k < ((s.setGlobal k prioritiesName (.map [])).setGlobal k functionsName
      (.map [])).scopes.size := by
    rw [Store.size_scopes_setGlobal]
    exact hk₁
  have hother {n : String} (hn : n ∉ interfaceRoutines.map Routine.name) :
      ((prepared k s).scope k).get? n = (((s.setGlobal k prioritiesName (.map [])).setGlobal k
        functionsName (.map [])).scope k).get? n :=
    (founds_bindRoutines (P := (· ∈ interfaceRoutines.map Routine.name))
      (fun _ hr => List.mem_map_of_mem hr) _).get? hk₂ hn
  refine ⟨fun r hr => holds_bindRoutines hk₂ (by decide) hr, ?_, ?_⟩
  · rw [hother (by decide), Store.scope_setGlobal hk₁, Table.get?_set_ne _ (by decide),
      Store.scope_setGlobal hk, Table.get?_set_self]
  · rw [hother (by decide), Store.scope_setGlobal hk₁, Table.get?_set_self]

theorem intact_installInterface (hs : s.Ground k) (hp : s.Holds k "provide" (.routine .provide k))
    (h : on (installInterface k) s = (.ok (), t)) : ∃ soy, t.Intact k soy [] [] := by
  have hground := ground_installInterface hs
  rw [h] at hground
  have hu := (lays_prepared k s).ground hs
  have hprovide := (lays_prepared k s).holds hs.scope hp (by decide)
  obtain ⟨hroutines, hpriorities, hfunctions⟩ := prepared_spec hs.scope
  rcases installInterface_cases k s with ⟨e, t', he, -⟩ | ⟨form, l, hl, hnames, hall⟩
  · rw [h] at he
    cases he
  rw [h] at hl
  obtain rfl := congrArg Prod.snd hl
  clear h hl
  generalize prepared k s = u at hground hu hprovide hroutines hpriorities hfunctions hall
  have hk : k < u.scopes.size := hu.scope
  have hgathered {n : String} (hn : n ∈ interfaceNames) : n ∈ l.map Prod.fst := hnames ▸ hn
  refine ⟨u.objects.size, hground.scope, hground.builtins,
    holds_withInterface hk (by decide) hprovide,
    holds_withInterface hk (by decide) (hroutines .emptyTemplate (by decide)), ?_,
    holdsMember_withInterface hall (hgathered (by decide))
      (hroutines .registerDelegate (by decide)),
    holdsMember_withInterface hall (hgathered (by decide)) (hroutines .selectDelegate (by decide)),
    (get?_withInterface hk (by decide)).trans hpriorities,
    (get?_withInterface hk (by decide)).trans hfunctions, fun n hn hi => ?_,
    fun j o n ho => ne_interface_of_member hu hall ho⟩
  · rw [scope_withInterface hk, Table.get?_set_self]
  · rw [get?_withInterface hk hn] at hi
    exact Nat.lt_irrefl _ (hu.globals n _ hi)

end Interface

end Run

end TemplateHost
