import TemplateHost.Proofs.Context.Support

/-!
# Delegates of the last batch

Which delegates a context selects after a batch follows from the statements of the batch alone. Two
contexts that have loaded it agree, whatever they have loaded before, and a priority that is taken
when a delegate of the batch comes is taken by another delegate of the same batch.
-/
namespace TemplateHost.Context
open Run
variable {c d d₁ d₂ e e₁ e₂ : Context} {support batch : List Fetched}

def selected (e : Context) (id variant allowEmpty : Value) : Except Fault Value :=
  (e.run fun k => select k id variant allowEmpty).1

/-- An object that is the template which the statement of a batch at a position has made. -/
structure Delegated (d e : Context) (batch : List Fetched) (position : Nat) (t : Template)
    (i : ObjectId) : Prop where
  made : madeBy d.globals d.store (statementsOf batch) position = .object i
  /-- It was not there before the batch. -/
  fresh : d.store.object? i = none
  form : e.store.HasForm i (.template t e.globals)

/-- Two contexts select the template of the same statement of a batch that was loaded in both, the
empty template in both, or fail alike. -/
inductive Agree (d₁ e₁ d₂ e₂ : Context) (batch : List Fetched) :
    Except Fault Value → Except Fault Value → Prop where
  | template {position : Nat} {id : String} {variant priority : Value} {t : Template}
    {i₁ i₂ : ObjectId}
    (hposition : (statementsOf batch)[position]? = some (.delegate id variant priority t))
    (h₁ : Delegated d₁ e₁ batch position t i₁) (h₂ : Delegated d₂ e₂ batch position t i₂) :
    Agree d₁ e₁ d₂ e₂ batch (.ok (.object i₁)) (.ok (.object i₂))
  | fallback {i₁ i₂ : ObjectId} (h₁ : e₁.store.HasForm i₁ (.routine .emptyTemplate e₁.globals))
    (h₂ : e₂.store.HasForm i₂ (.routine .emptyTemplate e₂.globals)) :
    Agree d₁ e₁ d₂ e₂ batch (.ok (.object i₁)) (.ok (.object i₂))
  | fault (f : Fault) : Agree d₁ e₁ d₂ e₂ batch (.error f) (.error f)

/-- After some statements a batch comes to a delegate whose priority is taken. -/
inductive Collides (d : Context) :
    List Fetched → List Statement → Statement → String → String → Prop where
  | intro {before after : List Fetched} {f : Fetched} {src : Source} {done rest : List Statement}
    {x : Statement} {id variant : String} {c₁ c₂ c₃ : Context} (hbefore : Runs d before c₁)
    (hf : f.result = .ok src) (hformed : src.malformedLine? = none)
    (hs : src.statements = done ++ x :: rest)
    (hdone : c₁.execute f.path (.holding done) = (.ok (), c₂))
    (hx : c₂.run (fun k => runStatement k x) = (.error (.tiedDelegates id variant), c₃)) :
    Collides d (before ++ f :: after) (statementsOf before ++ done) x id variant

theorem Ready.of_load (h : c.load support batch = (.ok (), e)) :
    ∃ d, Ready c support d ∧ d.loadBatch batch = (.ok (), e) := by
  have hready : ∃ d, Ready c support d := by
    cases hinit : c.initialized with
    | true => exact ⟨_, .earlier hinit⟩
    | false =>
      cases hrun : c.runSupport support with
      | mk q d =>
        cases q with
        | ok a => exact ⟨d, .now hinit hrun⟩
        | error f =>
          unfold Context.load at h
          rw [if_neg (by simp [hinit]), hrun] at h
          cases h
  obtain ⟨d, hd⟩ := hready
  rw [hd.load] at h
  exact ⟨d, hd, h⟩

/-- A batch that has been loaded, its roster, and the registries that it leaves. -/
structure Enrolled (d e : Context) (batch : List Fetched) (r : Delegates.Roster) : Prop where
  after : Delegates.Roster.after .empty 0 (statementsOf batch) = some r
  globals : e.globals = d.globals
  intact : ∃ soy, e.store.Intact d.globals soy r.priorities
    (r.functions (madeBy d.globals d.store (statementsOf batch)))
  delegated (position : Nat) (id : String) (variant priority : Value) (t : Template) :
    (statementsOf batch)[position]? = some (.delegate id variant priority t) →
    ∃ i, Delegated d e batch position t i

theorem enrolled {soy : ObjectId} (hd : d.store.Intact d.globals soy [] []) (hb : Tame batch)
    (hload : d.loadBatch batch = (.ok (), e)) : ∃ r, Enrolled d e batch r := by
  obtain ⟨ran, -, hstore, hok⟩ := executeAll_flat hd hb
  unfold loadBatch at hload
  obtain ⟨hresult, rfl⟩ := Prod.mk.inj hload
  obtain ⟨rfl, hall⟩ := hok hresult
  obtain ⟨-, ⟨r, hafter, hintact⟩, hforms⟩ := follows_forM (n := 0) hb
    (intact_empty hd (madeBy d.globals d.store (statementsOf batch)))
    (fun i _ => by rw [Nat.zero_add]) (Prod.ext hall rfl)
  rw [hstore]
  refine ⟨r, hafter, rfl, ⟨soy, hintact⟩, fun position id variant priority t hposition => ?_⟩
  obtain ⟨i, hmade, hle, hform⟩ := hforms position id variant priority t hposition
  rw [Nat.zero_add] at hmade
  exact ⟨i, hmade, Array.getElem?_eq_none hle, hform⟩

theorem Collides.on_forM {soy : ObjectId} (hd : d.store.Intact d.globals soy [] [])
    (hb : Tame batch) {ran : List Statement} {x : Statement} {id variant : String}
    (h : Collides d batch ran x id variant) :
    ran ++ [x] <+: statementsOf batch ∧ ∃ t, on (ran.forM (runStatement d.globals)) d.store =
      (.ok (), t) ∧ (on (runStatement d.globals x) t).1 = .error (.tiedDelegates id variant) := by
  obtain @⟨before, after, f, src, done, rest, _, _, _, c₁, c₂, c₃, hbefore, hf, hformed, hs, hdone,
    hx⟩ := h
  have hstatements : statementsOf (before ++ f :: after) =
      (statementsOf before ++ done ++ [x]) ++ (rest ++ statementsOf after) := by
    unfold statementsOf
    rw [List.flatMap_append, List.flatMap_cons, hf]
    dsimp only
    rw [hs]
    simp
  have hran : statementsOf before ++ done ++ [x] <+: statementsOf (before ++ f :: after) :=
    hstatements ▸ List.prefix_append _ _
  have hbtame : Tame before := fun y hy => hb y (hran.subset (by simp [hy]))
  obtain ⟨hc₁, hfirst⟩ := hbefore.flat hd hbtame
  have hglobals : c₁.globals = d.globals := by rw [hc₁]
  have hbound := bound_of_ran hd hbtame hfirst
  rw [← hglobals] at hbound
  have hholding := Source.formed_of_malformedLineFrom? hformed
  rw [execute_of_bound hbound (Source.malformedLine?_holding fun y hy =>
    hholding y (hs ▸ List.mem_append_left _ hy)), Source.statements_holding, hglobals] at hdone
  have happend := on_forM_append (runStatement d.globals) (statementsOf before) done d.store
  rw [hfirst] at happend
  dsimp only at happend
  cases hstep : on (done.forM (runStatement d.globals)) c₁.store with
  | mk q t =>
    rw [hstep] at hdone happend
    cases q with
    | error e => cases hdone
    | ok a =>
      obtain rfl := congrArg Prod.snd hdone
      rw [run_eq] at hx
      exact ⟨hran, t, happend, congrArg Prod.fst hx⟩

/-- A batch collides where its roster has the priority already. -/
theorem Collides.ties {soy : ObjectId} (hd : d.store.Intact d.globals soy [] []) (hb : Tame batch)
    {ran : List Statement} {x : Statement} {id variant : String}
    (h : Collides d batch ran x id variant) :
    ∃ r, Delegates.Roster.after .empty 0 ran = some r ∧ r.Ties x id variant := by
  obtain ⟨hran, t, hrun, hx⟩ := h.on_forM hd hb
  have htame : ∀ y ∈ ran ++ [x], y.IsTame := fun y hy => hb y (hran.subset hy)
  obtain ⟨-, r, hafter, hfollows⟩ := follows_next
    (fun y hy => htame y (List.mem_append_left _ hy)) (htame x (by simp)) hd hrun
  exact ⟨r, hafter, (hfollows.tied id variant).mp hx⟩

theorem Collides.load {ran : List Statement} {x : Statement} {id variant : String}
    (hready : Ready c support d) (h : Collides d batch ran x id variant) :
    ∃ f ∈ batch, (c.load support batch).1 =
      .error (.loading f.path (Fault.tiedDelegates id variant).summary .moduleExecution) := by
  obtain @⟨before, after, f, src, done, rest, _, _, _, c₁, c₂, c₃, hbefore, hf, hformed, hs, hdone,
    hx⟩ := h
  refine ⟨f, by simp, ?_⟩
  rw [hready.load, loadBatch_of_stops hbefore (.failing hf hformed hs hdone hx)]

theorem Enrolled.agree {r : Delegates.Roster} (h₁ : Enrolled d₁ e₁ batch r)
    (h₂ : Enrolled d₂ e₂ batch r) {id variant : Value} (hid : id.isPlain = true)
    (hvariant : variant.isPlain = true) (allowEmpty : Value) : Agree d₁ e₁ d₂ e₂ batch
      (e₁.selected id variant allowEmpty) (e₂.selected id variant allowEmpty) := by
  have hselect {d e : Context} (h : Enrolled d e batch r) :
      ∃ i, e.store.HasForm i (.routine .emptyTemplate e.globals) ∧
        e.selected id variant allowEmpty = (r.elect id variant allowEmpty).map fun choice =>
          (choice.map (madeBy d.globals d.store (statementsOf batch))).getD (.object i) := by
    obtain ⟨soy, hintact⟩ := h.intact
    rw [← h.globals] at hintact
    obtain ⟨i, hform, hselect⟩ := on_select hintact (by nofun) hid hvariant allowEmpty
    refine ⟨i, hform, ?_⟩
    unfold selected
    rw [run_eq, hselect, h.globals]
  obtain ⟨i₁, hform₁, hselect₁⟩ := hselect h₁
  obtain ⟨i₂, hform₂, hselect₂⟩ := hselect h₂
  rw [hselect₁, hselect₂]
  cases helect : r.elect id variant allowEmpty with
  | error f => exact .fault f
  | ok choice =>
    cases choice with
    | none => exact .fallback hform₁ hform₂
    | some position =>
      obtain ⟨id, variant, priority, t, hposition⟩ :=
        Delegates.Roster.delegate_of_elect h₁.after helect
      obtain ⟨j₁, hj₁⟩ := h₁.delegated position id variant priority t hposition
      obtain ⟨j₂, hj₂⟩ := h₂.delegated position id variant priority t hposition
      have hagree := Agree.template hposition hj₁ hj₂
      rw [← hj₁.made, ← hj₂.made] at hagree
      exact hagree

/-- The delegates of a batch that collides do so by themselves, in any other context. -/
theorem Collides.alone {soy₁ soy₂ : ObjectId} (h₁ : d₁.store.Intact d₁.globals soy₁ [] [])
    (h₂ : d₂.store.Intact d₂.globals soy₂ [] []) (hb : Tame batch) {ran : List Statement}
    {x : Statement} {id variant : String} (h : Collides d₁ batch ran x id variant) :
    (d₂.run fun k => ((ran ++ [x]).filter Statement.isDelegate).forM (runStatement k)).1 =
      .error (.tiedDelegates id variant) := by
  obtain ⟨hran, -⟩ := h.on_forM h₁ hb
  obtain ⟨r, hafter, hties⟩ := h.ties h₁ hb
  have halike : Delegates.Roster.Alike .empty .empty := fun _ => rfl
  obtain ⟨r', hafter', halike'⟩ := halike.after_filter 0 0 hafter
  have hlast : [x].filter Statement.isDelegate = [x] := by
    rw [List.filter_singleton, hties.isDelegate]
    rfl
  have hdelegates : ∀ y ∈ ran.filter Statement.isDelegate ++ [x],
      y.IsTame ∧ y.isDelegate = true := by
    intro y hy
    rw [← hlast, ← List.filter_append] at hy
    obtain ⟨hmem, hdelegate⟩ := List.mem_filter.mp hy
    exact ⟨hb y (hran.subset hmem), hdelegate⟩
  rw [List.filter_append, hlast]
  exact tied_forM hdelegates (intact_empty h₂ (madeBy d₂.globals d₂.store _))
    (fun i _ => by rw [Nat.zero_add]) hafter' (halike'.ties hties)

theorem Collides.not_loadBatch {soy₁ soy₂ : ObjectId}
    (h₁ : d₁.store.Intact d₁.globals soy₁ [] []) (h₂ : d₂.store.Intact d₂.globals soy₂ [] [])
    (hb : Tame batch) {ran : List Statement} {x : Statement} {id variant : String}
    (h : Collides d₁ batch ran x id variant) : (d₂.loadBatch batch).1.isOk = false := by
  obtain ⟨⟨rest, hrest⟩, -⟩ := h.on_forM h₁ hb
  obtain ⟨r, hafter, hties⟩ := h.ties h₁ hb
  cases hload : d₂.loadBatch batch with
  | mk q e =>
    cases q with
    | error f => rfl
    | ok a =>
      obtain ⟨r', hr'⟩ := enrolled h₂ hb hload
      have hafter' := hr'.after
      rw [← hrest, List.append_assoc, List.singleton_append, hties.after hafter] at hafter'
      cases hafter'

/-- **Delegates depend only on the last batch.** Two contexts with whatever histories that have
loaded the same batch select the same templates of that batch, none of them older, or they fail
alike. A load fails over a priority that is taken only if the delegates of its batch, registered by
themselves in any context that is ready for them, do so; then the batch cannot be loaded
anywhere. -/
theorem delegates_of_last_batch {c₁ c₂ : Context} {support₁ support₂ : List Fetched}
    (h₁ : c₁.Built) (h₂ : c₂.Built) (hs₁ : Packaged support₁) (hs₂ : Packaged support₂)
    (hb : Tame batch) :
    (∀ e₁ e₂, c₁.load support₁ batch = (.ok (), e₁) → c₂.load support₂ batch = (.ok (), e₂) →
      ∃ d₁ d₂, Ready c₁ support₁ d₁ ∧ Ready c₂ support₂ d₂ ∧
        ∀ id variant allowEmpty, id.isPlain = true → variant.isPlain = true →
          Agree d₁ e₁ d₂ e₂ batch (e₁.selected id variant allowEmpty)
            (e₂.selected id variant allowEmpty)) ∧
    ∀ d₁ d₂ ran x id variant, Ready c₁ support₁ d₁ → Ready c₂ support₂ d₂ →
      Collides d₁ batch ran x id variant →
      (∃ f ∈ batch, (c₁.load support₁ batch).1 = .error
        (.loading f.path (Fault.tiedDelegates id variant).summary .moduleExecution)) ∧
      (d₂.run fun k => ((ran ++ [x]).filter Statement.isDelegate).forM (runStatement k)).1 =
          .error (.tiedDelegates id variant) ∧
        (c₂.load support₂ batch).1.isOk = false := by
  refine ⟨fun e₁ e₂ hload₁ hload₂ => ?_, fun d₁ d₂ ran x id variant hready₁ hready₂ hcollides => ?_⟩
  · obtain ⟨d₁, hready₁, hbatch₁⟩ := Ready.of_load hload₁
    obtain ⟨d₂, hready₂, hbatch₂⟩ := Ready.of_load hload₂
    obtain ⟨-, soy₁, hintact₁⟩ := intact_of_ready h₁.sound hs₁ hready₁
    obtain ⟨-, soy₂, hintact₂⟩ := intact_of_ready h₂.sound hs₂ hready₂
    obtain ⟨r, hr⟩ := enrolled hintact₁ hb hbatch₁
    obtain ⟨r', hr'⟩ := enrolled hintact₂ hb hbatch₂
    obtain rfl := Option.some.inj (hr.after.symm.trans hr'.after)
    exact ⟨d₁, d₂, hready₁, hready₂, fun id variant allowEmpty hid hvariant =>
      hr.agree hr' hid hvariant allowEmpty⟩
  · obtain ⟨-, soy₁, hintact₁⟩ := intact_of_ready h₁.sound hs₁ hready₁
    obtain ⟨-, soy₂, hintact₂⟩ := intact_of_ready h₂.sound hs₂ hready₂
    refine ⟨hcollides.load hready₁, hcollides.alone hintact₁ hintact₂ hb, ?_⟩
    rw [hready₂.load]
    exact hcollides.not_loadBatch hintact₁ hintact₂ hb

section Sample

/-- A batch that defines a delegate of some priority as often as told. -/
def delegating (text : String) (priority : Int) (times : Nat) : List Fetched :=
  [⟨text ++ ".py", .ok (.holding (List.replicate times
    (.delegate "d" (.str "") (.int priority) ⟨text, [.text text], none, none⟩)))⟩]

theorem packaged_packaged (runtimeDir : String) : Packaged (Support.packaged runtimeDir) :=
  List.forall₂_map_right_iff.mpr (List.forall₂_same.mpr fun _ _ => Or.inl rfl)

theorem tame_delegating (text : String) (priority : Int) (times : Nat) :
    Tame (delegating text priority times) := by
  intro x hx
  unfold delegating at hx
  rw [statementsOf_cons] at hx
  dsimp only at hx
  rw [Source.statements_holding] at hx
  rcases List.mem_append.mp hx with hx | hx
  · rw [List.eq_of_mem_replicate hx]
    exact rfl
  · cases hx

/-- A context in which a delegate of a higher priority was registered before. -/
def rivalled : Context := ((new "a").load (Support.packaged "/r") (delegating "rival" 5 1)).2

theorem rivalled_initialized : rivalled.initialized = true := by
  decide +kernel

/-- The delegate that a result tells to be tied. -/
def tieOf : Except Fault Unit → Option (String × String)
  | .error (.tiedDelegates id variant) => some (id, variant)
  | _ => none

theorem collides_rivalled : ∃ ran x,
    Collides rivalled.resetRegistries (delegating "twice" 1 2) ran x "d" "" := by
  let x : Statement := .delegate "d" (.str "") (.int 1) ⟨"twice", [.text "twice"], none, none⟩
  have hruns :
      let r := rivalled.resetRegistries.execute "twice.py" (.holding [x])
      r.1.isOk = true ∧ tieOf (r.2.run fun k => runStatement k x).1 = some ("d", "") := by
    decide +kernel
  obtain ⟨hfirst, hsecond⟩ := hruns
  generalize hrun : (rivalled.resetRegistries.execute "twice.py" (.holding [x])).2.run
    (fun k => runStatement k x) = r at hsecond
  obtain ⟨q, c⟩ := r
  have hq : q = .error (.tiedDelegates "d" "") := by
    unfold tieOf at hsecond
    split at hsecond
    · next i v hiv =>
      obtain ⟨rfl, rfl⟩ := Prod.mk.inj (Option.some.inj hsecond)
      exact hiv
    · cases hsecond
  rw [hq] at hrun
  have hcollides : Collides rivalled.resetRegistries ([] ++ delegating "twice" 1 2)
      (statementsOf [] ++ [x]) x "d" "" :=
    .intro (.nil _) rfl rfl rfl (eq_ok_of_isOk hfirst) hrun
  exact ⟨_, x, hcollides⟩

/-- What was registered before with a higher priority is not selected, and delegates of the same
priority are refused in the other context too. -/
theorem delegates_of_last_batch_rivalled :
    Built rivalled ∧ Built (new "b") ∧ Packaged (Support.packaged "/r") ∧
    Tame (delegating "last" 1 1) ∧ Tame (delegating "twice" 1 2) ∧
    (∃ d₁ d₂ e₁ e₂, rivalled.load (Support.packaged "/r") (delegating "last" 1 1) = (.ok (), e₁) ∧
      (new "b").load (Support.packaged "/r") (delegating "last" 1 1) = (.ok (), e₂) ∧
      (e₁.selected (.str "d") (.str "") (.bool false)).isOk = true ∧
      Agree d₁ e₁ d₂ e₂ (delegating "last" 1 1) (e₁.selected (.str "d") (.str "") (.bool false))
        (e₂.selected (.str "d") (.str "") (.bool false))) ∧
    ∃ d ran x, Ready (new "b") (Support.packaged "/r") d ∧
      (d.run fun k => ((ran ++ [x]).filter Statement.isDelegate).forM (runStatement k)).1 =
        .error (.tiedDelegates "d" "") := by
  have hrivalled : Built rivalled :=
    .load (.new "a") (packaged_packaged "/r") (tame_delegating "rival" 5 1)
  have hpackaged := packaged_packaged "/r"
  have hload₁ :
      let r := rivalled.load (Support.packaged "/r") (delegating "last" 1 1)
      r.1.isOk = true ∧ (r.2.selected (.str "d") (.str "") (.bool false)).isOk = true := by
    decide +kernel
  have hload₂ : ((new "b").load (Support.packaged "/r") (delegating "last" 1 1)).1.isOk = true := by
    decide +kernel
  obtain ⟨d₁, d₂, -, hready, hagree⟩ := (delegates_of_last_batch hrivalled (.new "b") hpackaged
    hpackaged (tame_delegating "last" 1 1)).1 _ _ (eq_ok_of_isOk hload₁.1) (eq_ok_of_isOk hload₂)
  obtain ⟨ran, x, hcollides⟩ := collides_rivalled
  obtain ⟨-, htied, -⟩ := (delegates_of_last_batch hrivalled (.new "b") hpackaged hpackaged
    (tame_delegating "twice" 1 2)).2 _ d₂ ran x "d" "" (.earlier rivalled_initialized) hready
      hcollides
  exact ⟨hrivalled, .new "b", hpackaged, tame_delegating _ _ _, tame_delegating _ _ _,
    ⟨d₁, d₂, _, _, eq_ok_of_isOk hload₁.1, eq_ok_of_isOk hload₂, hload₁.2,
      hagree (.str "d") (.str "") (.bool false) rfl rfl⟩, d₂, ran, x, hready, htied⟩

end Sample

end TemplateHost.Context
