import TemplateHost.Code.Source
import TemplateHost.Proofs.Code.Interface

/-!
# Registering and selecting delegates

A statement that leaves the interface alone follows the roster: a delegate is registered, passed
over or refused as the roster says, and no other statement touches the registries. Whom the
registries select is then whom the roster selects.
-/
namespace TemplateHost

/-- A dotted name that can be assigned without touching the interface. -/
def Run.IsFree (name : String) : Prop :=
  match Text.dotted name with
  | [] => True
  | [head] => head ∉ guardedNames
  | head :: _ => head ≠ "soy"

/-- A statement that does not assign to the interface, to its members or to what it works through,
and whose constants refer to no objects. -/
def Statement.IsTame : Statement → Prop
  | .template path _ | .newNamespace path => Run.IsFree path
  | .assign path v => Run.IsFree path ∧ v.isPlain = true
  | .delegate _ variant _ _ => variant.isPlain = true
  | .provide _ _ | .raise _ _ | .malformed => True
  | .support _ => False

theorem Form.isTie_refusal (form : Form) (member : String) :
    (form.refusal member).isTie = false := by
  unfold Form.refusal
  split
  · rfl
  · split <;> rfl

namespace Store
variable {s : Store} {v : Value} {name : String} {e : Fault}

theorem isTie_of_member (h : s.member v name = .error e) : e.isTie = false := by
  unfold Store.member at h
  split at h
  · split at h
    · cases h
    · cases h
      exact Form.isTie_refusal _ _
  · cases h
    rfl

theorem isTie_of_setMember {w : Value} (h : s.setMember v name w = .error e) :
    e.isTie = false := by
  cases v with
  | object i => cases h
  | _ =>
    cases h
    rfl

theorem Intact.member {k : ScopeId} {soy : ObjectId} {p f : Entries} (h : s.Intact k soy p f)
    {w : Value} (hw : s.member v name = .ok w) : w ≠ .object soy := by
  obtain ⟨o, ho, hmember⟩ := member_eq_ok_iff.mp hw
  cases v with
  | object i =>
    rintro rfl
    rcases member?_eq_some_iff.mp hmember with hget | ⟨-, type, q, -, hq, hget⟩
    · exact h.members i o name ho hget
    · exact h.members type q name hq hget
  | _ => cases ho

end Store

namespace Run
variable {α β : Type} {k : ScopeId} {soy : ObjectId}

/-- Code that leaves the interface and the registries as they are. Its result has some property; if
it fails, then not over delegates. -/
def Spares (k : ScopeId) (soy : ObjectId) (m : Run α) (Q : α → Prop) : Prop :=
  ∀ (p f : Entries) (s : Store), s.Intact k soy p f →
    (on m s).2.Intact k soy p f ∧ s.Extends (on m s).2 ∧
      match (on m s).1 with
      | .ok a => Q a
      | .error e => e.isTie = false

section Spares
variable {m : Run α} {Q : α → Prop} {R : β → Prop}

theorem spares_pure {a : α} (ha : Q a) : Spares k soy (pure a) Q :=
  fun _ _ _ h => ⟨h, Store.Extends.refl _, ha⟩

theorem spares_throw {e : Fault} (he : e.isTie = false) : Spares k soy (throw e : Run α) Q :=
  fun _ _ _ h => ⟨h, Store.Extends.refl _, he⟩

theorem Spares.bind {g : α → Run β} (hm : Spares k soy m Q) (hg : ∀ a, Q a → Spares k soy (g a) R) :
    Spares k soy (m >>= g) R := by
  intro p f s h
  obtain ⟨hintact, hextends, hresult⟩ := hm p f s h
  rw [on_bind]
  cases hrun : on m s with
  | mk r t =>
    rw [hrun] at hintact hextends hresult
    cases r with
    | ok a =>
      obtain ⟨hintact', hextends', hresult'⟩ := hg a hresult p f t hintact
      exact ⟨hintact', hextends.trans hextends', hresult'⟩
    | error e => exact ⟨hintact, hextends, hresult⟩

theorem Spares.mono {Q' : α → Prop} (hm : Spares k soy m Q) (hq : ∀ a, Q a → Q' a) :
    Spares k soy m Q' := by
  intro p f s h
  obtain ⟨hintact, hextends, hresult⟩ := hm p f s h
  refine ⟨hintact, hextends, ?_⟩
  cases hr : (on m s).1 with
  | ok a =>
    rw [hr] at hresult
    exact hq a hresult
  | error e =>
    rw [hr] at hresult
    exact hresult

theorem Spares.foldlM {ι : Type} {g : α → ι → Run α} (hg : ∀ a x, Q a → Spares k soy (g a x) Q)
    (l : List ι) {a : α} (ha : Q a) : Spares k soy (l.foldlM g a) Q := by
  induction l generalizing a with
  | nil => exact spares_pure ha
  | cons x r ih =>
    rw [List.foldlM_cons]
    exact (hg a x ha).bind fun b hb => ih hb

theorem spares_discard (hm : Spares k soy m Q) : Spares k soy (discard m) fun _ => True :=
  (hm.bind (fun _ _ => spares_pure trivial) : Spares k soy (m >>= fun _ => pure PUnit.unit) _)

end Spares

theorem spares_global {name : String} (hname : name ≠ "soy") :
    Spares k soy (global k name) (· ≠ .object soy) := by
  intro p f s h
  rw [on_global]
  cases hget : (s.scope k).get? name with
  | none => exact ⟨h, Store.Extends.refl _, rfl⟩
  | some v =>
    refine ⟨h, Store.Extends.refl _, ?_⟩
    rintro rfl
    exact h.globals name hname hget

theorem spares_member (v : Value) (name : String) :
    Spares k soy (member v name) (· ≠ .object soy) := by
  intro p f s h
  unfold member
  rw [on_bind, on_get]
  dsimp only
  rw [on_ofExcept]
  refine ⟨h, Store.Extends.refl _, ?_⟩
  cases hm : s.member v name with
  | ok w => exact h.member hm
  | error e => exact Store.isTie_of_member hm

theorem spares_setMember {owner v : Value} (name : String) (howner : owner ≠ .object soy)
    (hv : v ≠ .object soy) : Spares k soy (setMember owner name v) fun _ => True := by
  intro p f s h
  rw [on_setMember]
  cases hset : s.setMember owner name v with
  | error e => exact ⟨h, Store.Extends.refl _, Store.isTie_of_setMember hset⟩
  | ok t =>
    obtain ⟨i, rfl, rfl⟩ := Store.setMember_ok hset
    exact ⟨h.withMember (Or.inl fun heq => howner (heq ▸ rfl)) hv, s.extends_withMember i _ _,
      trivial⟩

theorem spares_setGlobal {name : String} {v : Value} (hname : name ∉ guardedNames)
    (hv : v ≠ .object soy) : Spares k soy (setGlobal k name v) fun _ => True :=
  fun _ _ _ h => ⟨h.setGlobal (Or.inl hname) hv, Store.Extends.refl _, trivial⟩

theorem spares_add (form : Form) : Spares k soy (add (.ofForm form)) (· ≠ .object soy) := by
  intro p f s h
  rw [on_add]
  refine ⟨h.add _ nofun, s.extends_add _, ?_⟩
  rintro heq
  exact Nat.ne_of_gt h.lt_size (Value.object.inj heq)

theorem spares_construct (i : ObjectId) (form : Form) (args : List Value) :
    Spares k soy (construct i form args) (· ≠ .object soy) := by
  unfold construct
  split
  · exact spares_add _
  · exact spares_pure nofun
  · exact spares_pure nofun
  · exact spares_add _
  · exact spares_throw rfl

theorem spares_newNamespace : Spares k soy (newNamespace k) (· ≠ .object soy) := by
  have hrefused (v : Value) : Spares k soy (notCallable v : Run Value) (· ≠ .object soy) :=
    fun _ _ _ h => ⟨h, Store.Extends.refl _, rfl⟩
  refine (spares_global (by decide)).bind fun v _ => ?_
  split
  · intro p f s h
    rw [on_bind, on_get]
    dsimp only
    split
    · exact spares_construct _ _ _ p f s h
    · exact hrefused _ p f s h
  · exact hrefused _

/-- A member is declared only where it is missing, even of the interface. -/
theorem spares_declare (owner : Value) (name : String) :
    Spares k soy (declare k owner name) fun _ => True := by
  intro p f s h
  obtain ⟨hintact, hextends, hresult⟩ := spares_newNamespace p f s h
  rcases on_declare_cases k owner name s with
    heq | ⟨e, t, hnew, heq⟩ | ⟨v, t, e, hnew, hset, heq⟩ | ⟨v, t, i, hnew, rfl, hmissing, heq⟩
  · rw [heq]
    refine ⟨h, Store.Extends.refl _, ?_⟩
    cases hm : s.member owner name with
    | ok w => trivial
    | error e => exact Store.isTie_of_member hm
  · rw [hnew] at hintact hextends hresult
    rw [heq]
    exact ⟨hintact, hextends, hresult⟩
  · rw [hnew] at hintact hextends
    rw [heq]
    exact ⟨hintact, hextends, Store.isTie_of_setMember hset⟩
  · rw [hnew] at hintact hextends hresult
    rw [heq]
    have hown (o : Object) := (makes_newNamespace hnew).own_eq_none (o := o) hmissing
    obtain ⟨hlast, hextends', hresult'⟩ := (spares_member (.object i) name).mono
      (fun _ _ => trivial) p f _ (hintact.withMember (Or.inr hown) hresult)
    exact ⟨hlast, (hextends.trans (t.extends_withMember i name v)).trans hextends', hresult'⟩

theorem spares_declareTop (head : String) (allowed : Bool) :
    Spares k soy (declareTop k head allowed) fun _ => True := by
  intro p f s h
  obtain ⟨hintact, hextends, hresult⟩ := spares_newNamespace p f s h
  rcases on_declareTop_cases k head allowed s with
    ⟨v, heq⟩ | heq | ⟨e, t, hnew, heq⟩ | ⟨v, t, hnew, hfree, heq⟩
  · rw [heq]
    exact ⟨h, Store.Extends.refl _, trivial⟩
  · rw [heq]
    exact ⟨h, Store.Extends.refl _, rfl⟩
  · rw [hnew] at hintact hextends hresult
    rw [heq]
    exact ⟨hintact, hextends, hresult⟩
  · rw [hnew] at hintact hextends hresult
    rw [heq]
    exact ⟨hintact.setGlobal (Or.inr hfree) hresult, hextends, trivial⟩

theorem spares_provide (name : String) (allowTop : Bool) :
    Spares k soy (provide k name allowTop) fun _ => True := by
  unfold provide
  split
  · exact spares_pure trivial
  · exact (spares_declareTop _ _).bind fun v _ =>
      Spares.foldlM (fun w n _ => spares_declare w n) _ trivial

theorem spares_resolve {head : String} (hhead : head ≠ "soy") (rest : List String) :
    Spares k soy (resolve k head rest) (· ≠ .object soy) :=
  (spares_global hhead).bind fun _ hv => Spares.foldlM (fun w n _ => spares_member w n) rest hv

theorem spares_assign {name : String} (hname : IsFree name) {v : Value} (hv : v ≠ .object soy) :
    Spares k soy (assign k name v) fun _ => True := by
  unfold IsFree at hname
  unfold assign
  split
  · exact spares_pure trivial
  · next head hdotted =>
    rw [hdotted] at hname
    exact spares_setGlobal hname hv
  · next head next rest hdotted =>
    rw [hdotted] at hname
    exact (spares_resolve hname _).bind fun owner howner => spares_setMember _ howner hv

theorem on_call_routine {s : Store} {j : ObjectId} {o : Object} {r : Routine}
    (hj : s.object? j = some o) (hform : o.form = .routine r k) (args : List Value) :
    on (call (.object j) args) s = on (runRoutine r k args) s := by
  change on (invoke (899 + 1) (.object j) args) s = _
  unfold invoke
  dsimp only
  rw [on_bind, on_get]
  dsimp only
  rw [hj]
  dsimp only
  rw [hform]
  rfl

/-- Only delegates touch the registries. -/
theorem spares_runStatement {x : Statement} (hx : x.IsTame) (hd : x.isDelegate = false) :
    Spares k soy (runStatement k x) fun _ => True := by
  cases x with
  | provide name declareTop =>
    intro p f s h
    obtain ⟨i, o, hi, ho, hform⟩ := h.declarer
    unfold runStatement
    rw [on_bind_ok (on_global_of_some hi)]
    dsimp only
    have hcall (args : List Value) : on (discard (call (.object i) args)) s =
        on (discard (runRoutine .provide k args)) s := by
      rw [on_discard, on_discard, on_call_routine ho hform]
    rw [hcall]
    split
    · exact spares_discard (spares_provide name false) p f s h
    · exact spares_discard (spares_provide name true) p f s h
  | template path t => exact (spares_add _).bind fun v hv => spares_assign hx hv
  | delegate id variant priority t => cases hd
  | assign name v => exact spares_assign hx.1 (Value.ne_object_of_isPlain hx.2 soy)
  | newNamespace name => exact spares_newNamespace.bind fun v hv => spares_assign hx hv
  | raise kind message =>
    refine spares_throw ?_
    unfold Fault.ofRaise
    split <;> rfl
  | malformed => exact spares_throw rfl
  | support part => exact hx.elim

section Follow
variable {s t : Store} {r r' : Delegates.Roster} {made : Nat → Value} {n : Nat}

theorem on_interfaceMember {p f : Entries} (h : s.Intact k soy p f) {name : String} {form : Form}
    (hm : s.HoldsMember soy name form) : ∃ j o,
      on (interfaceMember k name) s = (.ok (.object j), s) ∧ s.object? j = some o ∧
        o.form = form := by
  obtain ⟨o, j, q, ho, hj, hq, hform⟩ := hm
  refine ⟨j, q, ?_, hq, hform⟩
  have hmember : s.member (.object soy) name = .ok (.object j) :=
    Store.member_eq_ok_iff.mpr ⟨o, ho, Store.member?_of_own hj⟩
  unfold interfaceMember member
  rw [on_bind_ok (on_global_of_some h.named), on_bind, on_get]
  dsimp only
  rw [on_ofExcept, hmember]

theorem isTie_of_plainText {v : Value} {e : Fault} (h : v.plainText = .error e) :
    e.isTie = false := by
  unfold Value.plainText Library.textOf at h
  split at h
  · cases h
  · cases h
    rfl

/-- Registering a function follows the roster, and what it does depends on the verdict. -/
theorem registerDelegate_cases (h : s.Intact k soy r.priorities (r.functions made)) (id : String)
    {variant : Value} (hvariant : variant.isPlain = true) (priority function : Value) :
    (∃ e, variant.plainText = .error e ∧
      on (registerDelegate k (.str id) variant priority function) s = (.error e, s)) ∨
    ∃ v, variant.plainText = .ok v ∧
      match r.judge id v priority with
      | .accepted => on (registerDelegate k (.str id) variant priority function) s =
          (.ok .null, s.withRegistries k (Entries.set (Delegates.key id v) priority r.priorities)
            (Entries.set (Delegates.key id v) function (r.functions made)))
      | .ignored =>
        on (registerDelegate k (.str id) variant priority function) s = (.ok .null, s)
      | .tied => on (registerDelegate k (.str id) variant priority function) s =
          (.error (.tiedDelegates id v), s)
      | .incomparable => ∃ message,
          on (registerDelegate k (.str id) variant priority function) s =
            (.error (.mismatch message), s) := by
  have hid : Library.textOf s.describer (.str id) = .ok id := rfl
  have htext : Library.textOf s.describer variant = variant.plainText :=
    Value.textOf_of_isPlain hvariant _
  cases hv : variant.plainText with
  | error e =>
    have hfirst : on (textOf (.str id)) s = (.ok id, s) := on_textOf _ s
    have hsecond : on (textOf variant) s = (.error e, s) := by rw [on_textOf, htext, hv]
    refine Or.inl ⟨e, rfl, ?_⟩
    unfold registerDelegate
    rw [on_bind_ok hfirst]
    exact on_bind_error hsecond _
  | ok v =>
    have hcases := on_registerDelegate h.registries hid (htext.trans hv) priority function
    rw [r.get?_priorities] at hcases
    exact Or.inr ⟨v, rfl, hcases⟩

/-- What a statement does to the registries is what it does to the roster. -/
structure Follows (k : ScopeId) (soy : ObjectId) (r : Delegates.Roster) (made : Nat → Value)
    (n : Nat) (x : Statement) (s : Store) : Prop where
  extended : s.Extends (on (runStatement k x) s).2
  kept : ∃ r' : Delegates.Roster,
    (on (runStatement k x) s).2.Intact k soy r'.priorities (r'.functions made)
  next : (on (runStatement k x) s).1.isOk = true → ∃ r', r.next n x = some r' ∧
    (on (runStatement k x) s).2.Intact k soy r'.priorities (r'.functions made)
  tied (id v : String) :
    (on (runStatement k x) s).1 = .error (.tiedDelegates id v) ↔ r.Ties x id v
  registers : x.isDelegate = true → (r.next n x).isSome = true →
    (on (runStatement k x) s).1.isOk = true
  placed (id : String) (variant priority : Value) (t : Template) :
    x = .delegate id variant priority t →
    (on (runStatement k x) s).2.HasForm s.objects.size (.template t k)

theorem follows_of_not_isDelegate (h : s.Intact k soy r.priorities (r.functions made))
    {x : Statement} (hx : x.IsTame) (hd : x.isDelegate = false) :
    Follows k soy r made n x s := by
  obtain ⟨hintact, hextends, hresult⟩ := spares_runStatement hx hd r.priorities _ s h
  have hnext := Delegates.Roster.next_of_not_isDelegate hd r
  refine ⟨hextends, ⟨r, hintact⟩, fun _ => ⟨r, hnext _, hintact⟩,
    fun id v => iff_of_false (fun he => ?_) ?_, fun hd' => ?_, ?_⟩
  · rw [he] at hresult
    cases hresult
  · rintro ⟨variant, priority, t, rfl, -⟩
    cases hd
  · rw [hd] at hd'
    cases hd'
  · rintro id variant priority t rfl
    cases hd

/-- The functions that statements define, by position, when the statements run on a store. -/
def madeBy (k : ScopeId) (s : Store) (xs : List Statement) (n : Nat) : Value :=
  .object (on ((xs.take n).forM (runStatement k)) s).2.objects.size

theorem on_delegate {p f : Entries} (h : s.Intact k soy p f) (id : String)
    (variant priority : Value) (t : Template) :
    on (runStatement k (.delegate id variant priority t)) s =
      on (discard (registerDelegate k (.str id) variant priority (.object s.objects.size)))
        (s.add (.ofForm (.template t k))).2 := by
  have hadd := h.add (.ofForm (.template t k)) nofun
  obtain ⟨j, o, hregister, hj, hform⟩ := on_interfaceMember hadd hadd.register
  unfold runStatement define
  rw [on_bind, on_add]
  dsimp only
  rw [on_bind_ok hregister, on_discard, on_discard, on_call_routine hj hform]
  rfl

theorem follows_of_registered (h : s.Intact k soy r.priorities (r.functions made)) {id : String}
    {variant priority : Value} {t : Template} {e : Except Fault Value} {u : Store}
    (hrun : on (registerDelegate k (.str id) variant priority (.object s.objects.size))
      (s.add (.ofForm (.template t k))).2 = (e, u))
    (hu : u.objects = (s.add (.ofForm (.template t k))).2.objects)
    (hr' : u.Intact k soy r'.priorities (r'.functions made))
    (hnext : r.next n (.delegate id variant priority t) = if e.isOk then some r' else none)
    (htied : ∀ i v, e = .error (.tiedDelegates i v) ↔
      r.Ties (.delegate id variant priority t) i v) :
    Follows k soy r made n (.delegate id variant priority t) s := by
  have hstatement := on_delegate h id variant priority t
  rw [on_discard, hrun] at hstatement
  have hobject (i : ObjectId) :
      u.object? i = (s.add (.ofForm (.template t k))).2.object? i := by
    unfold Store.object?
    rw [hu]
  constructor
  · rw [hstatement]
    exact fun i o ho => ⟨o, (hobject i).trans (Store.object?_add ho _), rfl⟩
  · rw [hstatement]
    exact ⟨r', hr'⟩
  · rw [hstatement, hnext]
    intro hok
    cases e with
    | ok a => exact ⟨r', rfl, hr'⟩
    | error e => cases hok
  · intro i v
    rw [hstatement, ← htied]
    cases e with
    | ok a => exact iff_of_false (fun h => by cases h) fun h => by cases h
    | error e =>
      exact ⟨fun he => congrArg _ (Except.error.inj he), fun he => congrArg _ (Except.error.inj he)⟩
  · rw [hstatement, hnext]
    intro _ hsome
    cases e with
    | ok a => rfl
    | error e => cases hsome
  · rintro _ _ _ t heq
    cases heq
    rw [hstatement]
    exact ⟨.ofForm (.template t k), (hobject _).trans (Store.object?_add_new s _), rfl⟩

theorem follows_delegate (h : s.Intact k soy r.priorities (r.functions made)) (id : String)
    {variant : Value} (hvariant : variant.isPlain = true) (priority : Value) (t : Template)
    (hmade : made n = .object s.objects.size) :
    Follows k soy r made n (.delegate id variant priority t) s := by
  have hadd := h.add (.ofForm (.template t k)) nofun
  rcases registerDelegate_cases hadd id hvariant priority (.object s.objects.size) with
    ⟨e, hv, hcase⟩ | ⟨v, hv, hcase⟩
  · refine follows_of_registered h hcase rfl hadd ?_ fun i w => ?_
    · simp only [Delegates.Roster.next, hv]
      rfl
    · have htie := isTie_of_plainText hv
      rw [Delegates.Roster.ties_delegate_iff, hv]
      refine iff_of_false (fun he => ?_) fun hno => by cases hno.2.1
      cases he
      cases htie
  · have hnext : r.next n (.delegate id variant priority t) = r.enter n id v priority := by
      simp only [Delegates.Roster.next, hv]
    rw [Delegates.Roster.enter] at hnext
    have hties (i w : String) : r.Ties (.delegate id variant priority t) i w ↔
        i = id ∧ v = w ∧ r.judge id v priority = .tied := by
      rw [Delegates.Roster.ties_delegate_iff, hv, Except.ok.injEq]
      exact and_congr_right fun _ => and_congr_right fun hw => by rw [hw]
    cases hjudge : r.judge id v priority with
    | accepted =>
      rw [hjudge] at hcase hnext
      refine follows_of_registered h hcase rfl ?_ hnext fun i w => by simp [hties, hjudge]
      rw [← hmade, r.set_priorities id v priority n, r.set_functions made id v priority n]
      exact hadd.setRegistries _ _
    | ignored =>
      rw [hjudge] at hcase hnext
      exact follows_of_registered h hcase rfl hadd hnext fun i w => by simp [hties, hjudge]
    | incomparable =>
      rw [hjudge] at hcase hnext
      obtain ⟨message, hcase⟩ := hcase
      exact follows_of_registered h hcase rfl hadd hnext fun i w => by simp [hties, hjudge]
    | tied =>
      rw [hjudge] at hcase hnext
      refine follows_of_registered h hcase rfl hadd hnext fun i w => ?_
      simp [hties, hjudge, eq_comm]

theorem follows (h : s.Intact k soy r.priorities (r.functions made)) {x : Statement}
    (hx : x.IsTame) (hmade : made n = .object s.objects.size) :
    Follows k soy r made n x s := by
  cases x with
  | delegate id variant priority t => exact follows_delegate h id hx priority t hmade
  | _ => exact follows_of_not_isDelegate h hx rfl

theorem madeBy_succ {x : Statement} {a : Unit} (hx : on (runStatement k x) s = (.ok a, t))
    (xs : List Statement) (i : Nat) : madeBy k s (x :: xs) (i + 1) = madeBy k t xs i := by
  unfold madeBy
  rw [List.take_succ_cons, on_forM_cons, hx]

/-- Statements that succeed follow the roster, and the functions that delegates define are new. -/
theorem follows_forM {xs : List Statement} (hxs : ∀ x ∈ xs, x.IsTame)
    (h : s.Intact k soy r.priorities (r.functions made))
    (hmade : ∀ i < xs.length, made (n + i) = madeBy k s xs i) {a : Unit}
    (hrun : on (xs.forM (runStatement k)) s = (.ok a, t)) :
    s.Extends t ∧
      (∃ r', r.after n xs = some r' ∧ t.Intact k soy r'.priorities (r'.functions made)) ∧
      ∀ i id variant priority tmpl, xs[i]? = some (.delegate id variant priority tmpl) →
        ∃ j, made (n + i) = .object j ∧ s.objects.size ≤ j ∧ t.HasForm j (.template tmpl k) := by
  induction xs generalizing s r n with
  | nil =>
    cases hrun
    exact ⟨.refl _, ⟨r, rfl, h⟩, nofun⟩
  | cons x xs ih =>
    have hfirst := hmade 0 (Nat.succ_pos _)
    have hx := follows (n := n) h (hxs x List.mem_cons_self) hfirst
    rw [on_forM_cons] at hrun
    cases hstep : on (runStatement k x) s with
    | mk q u =>
      rw [hstep] at hrun
      cases q with
      | error e => cases hrun
      | ok b =>
        obtain ⟨r₁, hnext, hu⟩ := hx.next (by rw [hstep]; rfl)
        have hextends := hx.extended
        have hplaced := hx.placed
        rw [hstep] at hu hextends hplaced
        have hrest : ∀ i < xs.length, made (n + 1 + i) = madeBy k u xs i := by
          intro i hi
          rw [← madeBy_succ hstep, ← hmade (i + 1) (Nat.succ_lt_succ hi), Nat.add_assoc,
            Nat.add_comm 1]
        obtain ⟨hextends', ⟨r', hafter, ht⟩, hforms⟩ :=
          ih (fun y hy => hxs y (List.mem_cons_of_mem _ hy)) hu hrest hrun
        refine ⟨hextends.trans hextends', ⟨r', ?_, ht⟩, fun i id variant priority tmpl hi => ?_⟩
        · rw [Delegates.Roster.after_cons, hnext]
          exact hafter
        · cases i with
          | zero =>
            refine ⟨s.objects.size, hfirst, Nat.le_refl _, hextends'.hasForm ?_⟩
            exact hplaced id variant priority tmpl (Option.some.inj hi)
          | succ i =>
            obtain ⟨j, hj, hle, hform⟩ := hforms i id variant priority tmpl hi
            refine ⟨j, ?_, Nat.le_trans hextends.size hle, hform⟩
            rw [← hj, Nat.add_assoc, Nat.add_comm 1]

theorem intact_empty (h : s.Intact k soy [] []) (made : Nat → Value) : s.Intact k soy
    (Delegates.Roster.priorities .empty) (Delegates.Roster.functions made .empty) := h

theorem follows_next {xs : List Statement} {x : Statement} (hxs : ∀ y ∈ xs, y.IsTame)
    (hx : x.IsTame) (h : s.Intact k soy [] []) {a : Unit}
    (hrun : on (xs.forM (runStatement k)) s = (.ok a, t)) :
    s.Extends t ∧ ∃ r, Delegates.Roster.after .empty 0 xs = some r ∧
      Follows k soy r (madeBy k s (xs ++ [x])) xs.length x t := by
  have hbefore (i : Nat) (hi : i ≤ xs.length) : madeBy k s (xs ++ [x]) i = madeBy k s xs i := by
    unfold madeBy
    rw [List.take_append_of_le_length hi]
  obtain ⟨hextends, ⟨r, hafter, ht⟩, -⟩ := follows_forM hxs
    (intact_empty h (madeBy k s (xs ++ [x]))) (n := 0)
    (fun i hi => by rw [Nat.zero_add, hbefore i (Nat.le_of_lt hi)]) hrun
  have hlast : madeBy k s (xs ++ [x]) xs.length = .object t.objects.size := by
    rw [hbefore _ (Nat.le_refl _)]
    unfold madeBy
    rw [List.take_length, hrun]
  exact ⟨hextends, r, hafter, follows ht hx hlast⟩

/-- Statements keep the interface, even if one of them fails. -/
theorem intact_forM {xs : List Statement} (hxs : ∀ x ∈ xs, x.IsTame) (h : s.Intact k soy [] []) :
    s.Extends (on (xs.forM (runStatement k)) s).2 ∧
      ∃ p f, (on (xs.forM (runStatement k)) s).2.Intact k soy p f := by
  cases hrun : on (xs.forM (runStatement k)) s with
  | mk q t =>
    cases q with
    | ok a =>
      obtain ⟨hextends, ⟨r', -, ht⟩, -⟩ := follows_forM hxs (intact_empty h (madeBy k s xs))
        (n := 0) (fun i _ => by rw [Nat.zero_add]) hrun
      exact ⟨hextends, _, _, ht⟩
    | error e =>
      obtain ⟨done, x, rest, u, rfl, hdone, hx⟩ := on_forM_error hrun
      obtain ⟨hextends, r, -, hfollows⟩ := follows_next
        (fun y hy => hxs y (List.mem_append_left _ hy)) (hxs x (by simp)) h hdone
      obtain ⟨r', ht⟩ := hfollows.kept
      have hextends' := hfollows.extended
      rw [hx] at ht hextends'
      exact ⟨hextends.trans hextends', _, _, ht⟩

/-- Delegates by themselves are registered, or refused, as the roster says. -/
theorem tied_forM {xs : List Statement} {x : Statement}
    (hxs : ∀ y ∈ xs ++ [x], y.IsTame ∧ y.isDelegate = true)
    (h : s.Intact k soy r.priorities (r.functions made))
    (hmade : ∀ i < (xs ++ [x]).length, made (n + i) = madeBy k s (xs ++ [x]) i)
    (hafter : r.after n xs = some r') {id v : String} (hx : r'.Ties x id v) :
    (on ((xs ++ [x]).forM (runStatement k)) s).1 = .error (.tiedDelegates id v) := by
  induction xs generalizing s r n with
  | nil =>
    obtain rfl := Option.some.inj hafter
    have htied := ((follows h (hxs x List.mem_cons_self).1 (hmade 0 Nat.one_pos)).tied id v).mpr hx
    rw [List.nil_append, on_forM_cons]
    cases hstep : on (runStatement k x) s with
    | mk q u =>
      rw [hstep] at htied
      dsimp only at htied
      rw [htied]
  | cons y xs ih =>
    obtain ⟨r₁, hnext, hrest⟩ := Option.bind_eq_some_iff.mp hafter
    obtain ⟨hytame, hydelegate⟩ := hxs y List.mem_cons_self
    have hy := follows (n := n) h hytame (hmade 0 (Nat.succ_pos _))
    have hok := hy.registers hydelegate (by rw [hnext]; rfl)
    obtain ⟨r₂, hnext', hu⟩ := hy.next hok
    obtain rfl : r₁ = r₂ := Option.some.inj (hnext.symm.trans hnext')
    rw [List.cons_append, on_forM_cons]
    cases hstep : on (runStatement k y) s with
    | mk q u =>
      rw [hstep] at hok hu
      cases q with
      | error e => cases hok
      | ok a =>
        have hmade' : ∀ i < (xs ++ [x]).length,
            made (n + 1 + i) = madeBy k u (xs ++ [x]) i := by
          intro i hi
          rw [← madeBy_succ hstep, ← List.cons_append, ← hmade (i + 1) (Nat.succ_lt_succ hi),
            Nat.add_assoc, Nat.add_comm 1]
        exact ih (fun z hz => hxs z (List.mem_cons_of_mem _ hz)) hu hmade' hrest

def select (k : ScopeId) (id variant allowEmpty : Value) : Run Value := do
  call (← interfaceMember k "get_delegate_fn") [id, variant, allowEmpty]

theorem on_select (h : s.Intact k soy r.priorities (r.functions made))
    (hmade : ∀ i, made i ≠ .null) {id variant : Value} (hid : id.isPlain = true)
    (hvariant : variant.isPlain = true) (allowEmpty : Value) :
    ∃ i, s.HasForm i (.routine .emptyTemplate k) ∧
      on (select k id variant allowEmpty) s =
        ((r.elect id variant allowEmpty).map fun choice => (choice.map made).getD (.object i),
          s) := by
  obtain ⟨i, o, hi, ho, hform⟩ := h.fallback
  refine ⟨i, ⟨o, ho, hform⟩, ?_⟩
  obtain ⟨j, q, hselect, hj, hq⟩ := on_interfaceMember h h.select
  have hglobal : on (global k (Routine.name .emptyTemplate)) s = (.ok (.object i), s) :=
    on_global_of_some hi
  have hchosen (v : String) : (id.plainText.bind fun w =>
      selection (r.functions made) w v allowEmpty (.ok (.object i))) =
        (r.electFor id v allowEmpty).map fun choice => (choice.map made).getD (.object i) := by
    unfold Delegates.Roster.electFor
    cases id.plainText with
    | error e => rfl
    | ok w =>
      dsimp only [Except.bind]
      unfold selection
      rw [r.select?_functions made hmade]
      cases r.select? w v with
      | some n => rfl
      | none =>
        dsimp only [Option.map_none]
        by_cases hallow : allowEmpty.isTrue = true
        · rw [if_pos hallow, if_pos hallow]
          rfl
        · rw [if_neg hallow, if_neg hallow]
          rfl
  unfold select
  rw [on_bind_ok hselect, on_call_routine hj hq]
  refine (on_selectDelegate h.registries id variant allowEmpty).trans ?_
  rw [hglobal, Value.textOf_of_isPlain hid]
  unfold variantText Delegates.Roster.elect
  rw [Value.textOf_of_isPlain hvariant]
  simp only [hchosen]
  split
  · rfl
  · cases variant.plainText <;> rfl

end Follow

end Run

end TemplateHost
