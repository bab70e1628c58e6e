import TemplateHost.Proofs.Watch.History
import TemplateHost.Proofs.Watch.Turns

/-!
# Registered sources

Whoever is registered for changes of a file belongs to a scheduler that is there.
-/
namespace TemplateHost.Watch
variable {T ρ : Type}

theorem Watcher.callback?_watch {w : Watcher} {file f : String} {c d : Callback}
    (hd : (w.watch file c).2.callback? f = some d) : d = c ∨ w.callback? f = some d := by
  cases w with
  | table refused callbacks =>
    by_cases hr : refused.contains file = true
    · exact Or.inr (by simpa only [watch, if_pos hr] using hd)
    · simp only [watch, if_neg hr, callback?] at hd
      by_cases hf : f = file
      · rw [hf, Table.get?_set_self] at hd
        exact Or.inl (Option.some.inj hd).symm
      · rw [Table.get?_set_ne _ hf] at hd
        exact Or.inr hd
  | live unwatchable w =>
    simp only [watch, callback?, FileWatcher.watch] at hd ⊢
    have hstart (v : FileWatcher Callback) : v.startObserver.callbacks = v.callbacks := by
      unfold FileWatcher.startObserver
      split <;> rfl
    split at hd
    · rename_i v hv
      have hc : v.callbacks = w.callbacks := by
        unfold FileWatcher.schedule at hv
        split at hv
        · rw [← Except.ok.inj hv, hstart]
        · split at hv
          · cases hv
          · rw [← Except.ok.inj hv]
            exact hstart _
      dsimp only at hd
      by_cases hf : f = Path.absolute w.cwd file
      · rw [hf, Table.get?_set_self] at hd
        exact Or.inl (Option.some.inj hd).symm
      · rw [Table.get?_set_ne _ hf, hc] at hd
        exact Or.inr hd
    · rw [hstart] at hd
      exact Or.inr hd

theorem Watcher.callback?_stop (w : Watcher) (f : String) : w.stop.callback? f = none := by
  cases w with
  | table refused callbacks => rfl
  | live unwatchable w =>
    unfold Watcher.stop FileWatcher.stop
    dsimp only
    split <;> rfl

namespace State

/-- Every registration is for a scheduler. -/
def Directed (s : State T ρ) : Prop :=
  ∀ f c, s.watcher.callback? f = some c → c.scheduler < s.schedulers.length

variable {s t : State T ρ}

theorem Directed.of_eq (hs : s.Directed) (hw : t.watcher = s.watcher)
    (hl : t.schedulers.length = s.schedulers.length) : t.Directed := by
  intro f c hc
  rw [hl]
  exact hs f c (hw ▸ hc)

theorem Directed.watch (hs : s.Directed) (k : SchedulerId) (now : T) (relative : String) :
    (s.watch k now relative).2.2.Directed := by
  unfold State.watch
  cases hk : s.schedulers[k]? with
  | none => exact hs
  | some x =>
    have hlt := (List.getElem?_eq_some_iff.mp hk).1
    dsimp only
    split_ifs
    · exact hs
    · have hnew (file : String) (w : Watcher) (r : Except FileErrorKind Unit)
          (hw : s.watcher.watch file ⟨k, file, relative⟩ = (r, w)) (f : String) (c : Callback)
          (hc : w.callback? f = some c) : c.scheduler < s.schedulers.length := by
        have hw' : w = (s.watcher.watch file ⟨k, file, relative⟩).2 := by rw [hw]
        rcases Watcher.callback?_watch (hw' ▸ hc) with rfl | hold
        · exact hlt
        · exact hs f c hold
      split
      · rename_i w hw
        exact hnew _ _ _ hw
      · rename_i kind w hw
        exact hnew _ _ _ hw

theorem Directed.step [Sub T] [LT T] [DecidableLT T] {h es : History ρ} (hs : s.Directed)
    (step : Step h s es t) : t.Directed := by
  cases step with
  | enlist inputDir debounce =>
    intro f c hc
    exact Nat.lt_of_lt_of_le (hs f c hc) (by simp [addScheduler])
  | register k now relative => exact hs.watch k now relative
  | close =>
    intro f c hc
    rw [show s.close.watcher = s.watcher.stop from rfl, Watcher.callback?_stop] at hc
    cases hc
  | report c hc => exact hs
  | accept n now hn hx hd =>
    rw [accept_of_due hn hx hd]
    exact hs.of_eq rfl (by simp [modifyScheduler])
  | drop n now hn hx hd =>
    rw [accept_of_not_due hn hx hd]
    exact hs
  | wait n hn hst hp =>
    exact hs.of_eq (s.proceed_frame n).1 (s.proceed_frame n).2
  | launch n hn hst hp hx =>
    exact hs.of_eq (s.proceed_frame n).1 (s.proceed_frame n).2
  | finish hp result =>
    exact hs.of_eq (s.endPass_frame _ result).1 (s.endPass_frame _ result).2

end State

theorem Run.directed [Sub T] [LT T] [DecidableLT T] {cwd : String} {watcher : Watcher}
    {h : History ρ} {s : State T ρ} (hw : ∀ f, watcher.callback? f = none)
    (run : Run cwd watcher h s) : s.Directed := by
  induction run with
  | start =>
    intro f c hc
    rw [show (State.new cwd watcher : State T ρ).watcher = watcher from rfl, hw] at hc
    cases hc
  | next _ step ih => exact ih.step step

end TemplateHost.Watch
