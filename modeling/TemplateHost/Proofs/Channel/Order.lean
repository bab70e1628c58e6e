import TemplateHost.Proofs.Channel.Duties
import TemplateHost.Proofs.Channel.Waiting

/-!
# Orderly channels

However listeners register, remove, announce, wait, cancel and raise, each announcement calls those
who were registered when it started, a single registration is called once, a listener that was
removed is not called by what starts later, and a wait ends with the first announcement that
completes after it began. What a listener raises makes no difference to the others if it is an
error. Otherwise the announcements under way end there: their remaining calls are not made, and they
end no wait.
-/
namespace TemplateHost.Channel
variable {α ε : Type} [DecidableEq α]

namespace History
variable {before rest : History α ε} {e : Event α ε} {r : Nat} {x : Registration α}

theorem lt_of_mem_standing {h : History α ε} (hr : (r, x) ∈ h.standing) : r < h.length :=
  (List.getElem?_eq_some_iff.mp (mem_standing.mp hr).1).1

theorem ends_of_mem_standing (hr : (r, x) ∈ standing (before ++ e :: rest))
    (hlt : r < before.length) : e.ends x = false := by
  have hkeeps := (mem_standing.mp hr).2
  rw [List.drop_append_of_le_length hlt] at hkeeps
  have he := List.all_eq_true.mp hkeeps e (List.mem_append_right _ List.mem_cons_self)
  simpa using he

omit [DecidableEq α] in
theorem exists_of_length_lt {h after before' after' : History α ε} {d : Event α ε}
    (heq : h = before ++ e :: after) (heq' : h = before' ++ d :: after')
    (hlt : before.length < before'.length) : ∃ rest, before' = before ++ e :: rest := by
  rcases List.append_eq_append_iff.mp (heq.symm.trans heq') with ⟨c, hc, hrest⟩ | ⟨c, hc, -⟩
  · cases c with
    | nil =>
      rw [List.append_nil] at hc
      exact absurd hlt (by rw [hc]; exact Nat.lt_irrefl _)
    | cons b c =>
      obtain ⟨rfl, -⟩ := List.cons.inj hrest
      exact ⟨c, hc⟩
  · rw [hc, List.length_append] at hlt
    omega

theorem getElem?_of_mem_standing {h : History α ε} (hr : (r, x) ∈ h.standing)
    (rest : History α ε) : (h ++ rest)[r]? = some (.registered x) := by
  rw [List.getElem?_append_left (lt_of_mem_standing hr), (mem_standing.mp hr).1]

theorem length_eq_of_once {h h₁ h₂ rest₁ rest₂ : History α ε} {error₁ error₂ : Option ε}
    (heq₁ : h = h₁ ++ .emitted error₁ :: rest₁) (heq₂ : h = h₂ ++ .emitted error₂ :: rest₂)
    (hx₁ : (r, x) ∈ h₁.standing) (hx₂ : (r, x) ∈ h₂.standing) (hx : x.once = true) :
    h₁.length = h₂.length := by
  rcases Nat.lt_trichotomy h₁.length h₂.length with hlt | hlength | hlt
  · obtain ⟨c, rfl⟩ := exists_of_length_lt heq₁ heq₂ hlt
    have hkept := ends_of_mem_standing hx₂ (lt_of_mem_standing hx₁)
    exact absurd hx (Bool.not_eq_true _ ▸ hkept)
  · exact hlength
  · obtain ⟨c, rfl⟩ := exists_of_length_lt heq₂ heq₁ hlt
    have hkept := ends_of_mem_standing hx₁ (lt_of_mem_standing hx₂)
    exact absurd hx (Bool.not_eq_true _ ▸ hkept)

omit [DecidableEq α] in
theorem done_append_did (h rest : History α ε) (d : Duty α ε) :
    done (h ++ .did d :: rest) d.emission = h.done d.emission ++ d :: rest.done d.emission := by
  simp [done, Event.duty?]

end History

/-- An announcement that started after `before`, and after which `after` has happened. -/
structure Announced (t : Trace α ε) (before after : History α ε) (error : Option ε) : Prop where
  /-- Its calls are made in order, each once. -/
  ordered : t.history.done before.length <+: before.duties before.length error
  /-- It completes when all of them have been made. -/
  completed (error' : Option ε) : .did (.complete before.length error') ∈ t.history →
    error' = error ∧ t.history.done before.length = before.duties before.length error
  /-- It has completed when nothing is left to do, unless something was raised that is no error. -/
  idle : t.agenda = [] → .aborted ∉ after →
    t.history.done before.length = before.duties before.length error
  /-- Nothing of it is done after that. -/
  cut (meanwhile later : History α ε) : after = meanwhile ++ .aborted :: later →
    t.history.done before.length =
      History.done (before ++ .emitted error :: meanwhile) before.length

section Sound
variable {t : Trace α ε}

omit [DecidableEq α] in
theorem mem_done {h : History α ε} {d : Duty α ε} (hd : .did d ∈ h) : d ∈ h.done d.emission :=
  List.mem_filter.mpr ⟨List.mem_filterMap.mpr ⟨_, hd, rfl⟩, decide_eq_true rfl⟩

theorem Sound.announced (hs : Sound t) {before after : History α ε} {error : Option ε}
    (heq : t.history = before ++ .emitted error :: after) : Announced t before after error := by
  obtain ⟨hpre, hall⟩ := hs.recorded before after error heq
  rw [Trace.record, List.filter_append] at hpre hall
  have hordered : t.history.done before.length <+: before.duties before.length error :=
    (List.prefix_append _ _).trans hpre
  refine ⟨hordered, fun error' hd => ?_, fun ht hafter => ?_, fun meanwhile later hsplit => ?_⟩
  · have hmem := mem_done hd
    have hend : .complete before.length error' ∉
        before.standing.map fun x => Duty.call before.length x.1 x.2.listener error := by
      simp
    rcases List.prefix_concat_iff.mp hordered with hdone | hcalls
    · change t.history.done before.length = before.duties before.length error at hdone
      refine ⟨?_, hdone⟩
      change _ ∈ t.history.done before.length at hmem
      rw [hdone] at hmem
      rcases List.mem_append.mp hmem with hcall | hlast
      · exact absurd hcall hend
      · exact (Duty.complete.inj (List.mem_singleton.mp hlast)).2
    · exact absurd (hcalls.subset hmem) hend
  · rw [← hall hafter, ht]
    exact (List.append_nil _).symm
  · subst hsplit
    have hdropped : History.done later before.length = [] := by
      refine List.filter_eq_nil_iff.mpr fun d hd => ?_
      obtain ⟨e, he, hduty⟩ := List.mem_filterMap.mp hd
      cases e with
      | did d' =>
        obtain rfl := Option.some.inj hduty
        have hlt := hs.dropped (before ++ .emitted error :: meanwhile) later d' (by simp [heq]) he
        rw [List.length_append, List.length_cons] at hlt
        rw [decide_eq_true_eq]
        omega
      | registered | removed | emitted | waited | cancelled | turned | failed | aborted =>
        cases hduty
    have hsplit : t.history =
        (before ++ .emitted error :: meanwhile) ++ .aborted :: later := by simp [heq]
    rw [hsplit]
    unfold History.done at hdropped ⊢
    rw [List.filterMap_append, List.filter_append, List.filterMap_cons_none rfl, hdropped,
      List.append_nil]

theorem Sound.called (hs : Sound t) {e r : Nat} {l : α} {error : Option ε}
    (hd : .did (.call e r l error) ∈ t.history) :
    ∃ (before after : History α ε) (once : Bool), t.history = before ++ .emitted error :: after ∧
      before.length = e ∧ (r, ⟨l, once⟩) ∈ before.standing := by
  obtain ⟨before, error', after, heq, rfl⟩ := hs.started (.call e r l error)
    (List.mem_append_left _ (List.mem_filterMap.mpr ⟨_, hd, rfl⟩))
  have hmem := (hs.announced heq).ordered.subset (mem_done hd)
  rcases List.mem_append.mp hmem with hmem | hmem
  · obtain ⟨⟨i, y⟩, hy, h⟩ := List.mem_map.mp hmem
    cases h
    exact ⟨before, after, y.once, heq, rfl, hy⟩
  · cases List.mem_singleton.mp hmem

theorem duties_sorted (h : History α ε) (e : Nat) (error : Option ε) :
    (h.duties e error).Pairwise fun c d => ∀ r ∈ c.registration?, ∀ i ∈ d.registration?, r < i := by
  refine List.pairwise_append.mpr ⟨List.pairwise_map.mpr ?_, List.pairwise_singleton .., ?_⟩
  · refine h.standing_sorted.imp fun hlt r hr i hi => ?_
    cases hr
    cases hi
    exact hlt
  · intro c _ d hd r _ i hi
    cases List.mem_singleton.mp hd
    cases hi

theorem Sound.once (hs : Sound t) {before after : History α ε} {e r e' : Nat} {l l' : α}
    {error error' : Option ε} (heq : t.history = before ++ .did (.call e r l error) :: after)
    (hr : t.history[r]? = some (.registered ⟨l, true⟩)) :
    .did (.call e' r l' error') ∉ after := by
  intro hd
  have hfirst : .did (.call e r l error) ∈ t.history := by simp [heq]
  have hsecond : .did (.call e' r l' error') ∈ t.history := by simp [heq, hd]
  obtain ⟨h₁, rest₁, once₁, heq₁, rfl, hstands₁⟩ := hs.called hfirst
  obtain ⟨h₂, rest₂, once₂, heq₂, rfl, hstands₂⟩ := hs.called hsecond
  have hregistered {h rest : History α ε} {x : Registration α} (hh : t.history = h ++ rest)
      (hx : (r, x) ∈ h.standing) : x = ⟨l, true⟩ := by
    have hr' := History.getElem?_of_mem_standing hx rest
    rw [← hh, hr] at hr'
    exact (Event.registered.inj (Option.some.inj hr')).symm
  rw [hregistered heq₁ hstands₁] at hstands₁
  rw [hregistered heq₂ hstands₂] at hstands₂
  have hlength := History.length_eq_of_once heq₁ heq₂ hstands₁ hstands₂ rfl
  have hsorted := (duties_sorted h₁ h₁.length error).sublist (hs.announced heq₁).ordered.sublist
  rw [heq] at hsorted
  have hagain : _ ∈ after.done h₂.length := mem_done hd
  rw [← hlength] at hagain
  change (History.done _ (Duty.call h₁.length r l error).emission).Pairwise _ at hsorted
  rw [History.done_append_did] at hsorted
  exact Nat.lt_irrefl r (List.rel_of_pairwise_cons (List.pairwise_append.mp hsorted).2.1 hagain
    r rfl r rfl)

theorem Sound.removed (hs : Sound t) {before after : History α ε} {e r : Nat} {l : α}
    {error : Option ε} (heq : t.history = before ++ .removed l :: after)
    (hd : .did (.call e r l error) ∈ t.history) (hlt : before.length < e) :
    before.length < r ∧ r < e ∧ ∃ once, t.history[r]? = some (.registered ⟨l, once⟩) := by
  obtain ⟨h, rest, once, hh, rfl, hstands⟩ := hs.called hd
  have hr := History.lt_of_mem_standing hstands
  have hregistered := (History.mem_standing.mp hstands).1
  obtain ⟨c, rfl⟩ := History.exists_of_length_lt heq hh hlt
  refine ⟨?_, hr, once, by rw [hh, List.getElem?_append_left hr, hregistered]⟩
  rcases Nat.lt_trichotomy r before.length with hbefore | rfl | hafter
  · have hends := History.ends_of_mem_standing hstands hbefore
    simp [Event.ends] at hends
  · simp at hregistered
  · exact hafter

end Sound

/-- What every run keeps of a channel. -/
structure Orderly (t : Trace α ε) : Prop where
  /-- Without the names, what is left to do after a task is what the channel has left to do. -/
  faithful (script : α → List (Action α ε)) (x : Task α ε) (rest : List (Task α ε)) :
    (x.next script t.history rest).map Task.item =
      (step script t.session (rest.map Task.item) x.item).2
  calls_eq : t.session.calls = t.history.calls
  /-- The registrations are those that nothing has taken away, in order. -/
  registrations_eq : t.session.channel.registrations = t.history.standing.map (·.2)
  /-- An announcement calls those who were registered when it started. -/
  announced (before after : History α ε) (error : Option ε) :
    t.history = before ++ .emitted error :: after → Announced t before after error
  /-- Nobody else is called, and no announcement completes but one that started. -/
  started (d : Duty α ε) : .did d ∈ t.history →
    ∃ (before after : History α ε) (error : Option ε),
      t.history = before ++ .emitted error :: after ∧ d ∈ before.duties before.length error
  /-- A single registration is called once at most. -/
  once (before after : History α ε) (e r e' : Nat) (l l' : α) (error error' : Option ε) :
    t.history[r]? = some (.registered ⟨l, true⟩) →
      t.history = before ++ .did (.call e r l error) :: after →
      .did (.call e' r l' error') ∉ after
  /-- After a listener was removed, what starts calls it for later registrations only. -/
  removed (before after : History α ε) (e r : Nat) (l : α) (error : Option ε) :
    t.history = before ++ .removed l :: after → .did (.call e r l error) ∈ t.history →
      before.length < e →
      before.length < r ∧ r < e ∧ ∃ once, t.history[r]? = some (.registered ⟨l, once⟩)
  /-- A wait ends with the first announcement to complete after it began. -/
  awaited (before after : History α ε) (id : String) :
    t.history = before ++ .waited id :: after → .waited id ∉ after →
      Awaited t.session.channel id after

/-- **Channels are orderly**, in every run, whatever the listeners do. -/
theorem run_orderly {t : Trace α ε} (run : Run t) : Orderly t where
  faithful script x rest := item_next script t.session run.sound.registrations_eq x rest
  calls_eq := run.sound.calls_eq
  registrations_eq := run.sound.registrations_eq
  announced _ _ _ heq := run.sound.announced heq
  started d hd := by
    obtain ⟨before, error, after, heq, hlength⟩ := run.sound.started d
      (List.mem_append_left _ (List.mem_filterMap.mpr ⟨_, hd, rfl⟩))
    refine ⟨before, after, error, heq, (run.sound.announced heq).ordered.subset ?_⟩
    rw [hlength]
    exact mem_done hd
  once _ _ _ _ _ _ _ _ _ hr heq := run.sound.once heq hr
  removed _ _ _ _ _ _ heq hd hlt := run.sound.removed heq hd hlt
  awaited _ _ _ heq hnew := run.awaited heq hnew

/-- The listener `a` announces in turn, and the single listener `b` comes after it. The inner
announcement calls `a` alone, which fails, and ends the wait. Then `a` raises something that is no
error, and the outer announcement never reaches `b`. -/
theorem run_orderly_nested :
    ∃ t : Trace String String, Run t ∧ Orderly t ∧
      t.history = [.registered ⟨"a", false⟩, .registered ⟨"b", true⟩, .waited "w", .turned ["w"],
        .emitted (some "late"), .did (.call 4 0 "a" (some "late")), .emitted none,
        .did (.call 6 0 "a" none), .failed, .did (.complete 6 none), .aborted, .turned ["w"]] ∧
      t.agenda = [] ∧ t.session.channel.results = [("w", .ended none)] := by
  let quiet : String → List (Action String String) := fun _ => []
  have h₀ : Run (Trace.start : Trace String String) := .start
  have h₁ := (h₀.act rfl (.on "a")).step rfl quiet
  have h₂ := (h₁.act rfl (.once "b")).step rfl quiet
  have h₃ := ((h₂.act rfl (.wait "w")).step rfl quiet).turn ["w"]
  have h₄ := (h₃.act rfl (.emit (some "late"))).step rfl quiet
  have h₅ := (h₄.step rfl fun _ => [.emit none, .abort]).step rfl quiet
  have h₆ := (h₅.step rfl fun _ => [.fail]).step rfl quiet
  have h₇ := ((h₆.step rfl quiet).step rfl quiet).turn ["w"]
  exact ⟨_, h₇, run_orderly h₇, rfl, rfl, rfl⟩

end TemplateHost.Channel
