import TemplateHost.Proofs.Options.Artifact

/-!
# Transfers of earlier output

While earlier artifacts are copied to where they have to be, a tree gets directories above these
places and, at them, what the earlier artifacts hold. Nothing else changes; the earlier artifacts
themselves are not touched, and what has arrived stays.
-/
namespace TemplateHost.Reuse
open Layout TemplateHost.Path FileTree

/-- An artifact of an earlier run, and where it has to be. -/
structure Transfer where
  earlier : String
  target : String
  direct : ∃ lead k ns, Direct earlier lead k ns
  below : ∃ lead k ns a, Direct target lead k (ns ++ [a])

namespace Transfer

def origin (w : Transfer) (cwd : Place) : Place := place cwd w.earlier

def goal (w : Transfer) (cwd : Place) : Place := place cwd w.target

def Moves (w : Transfer) (cwd : Place) : Prop := w.goal cwd ≠ w.origin cwd

/-- What was there at first at one end is now at the other. -/
def Arrived (w : Transfer) (t₀ t : FileTree) : Prop :=
  ∃ c, t₀.content w.earlier = .ok c ∧ t.content w.target = .ok c

variable {w : Transfer} {t : FileTree} {c : Content}

theorem content_earlier (w : Transfer) (ht : t.Proper) :
    t.content w.earlier = .ok c ↔ t.node? (w.origin t.cwd) = some (.file c) := by
  obtain ⟨lead, k, ns, hd⟩ := w.direct
  exact ht.content_iff hd

theorem content_target (w : Transfer) (ht : t.Proper) :
    t.content w.target = .ok c ↔ t.node? (w.goal t.cwd) = some (.file c) := by
  obtain ⟨lead, k, ns, a, hd⟩ := w.below
  exact ht.content_iff hd

end Transfer

/-- A place to which something moves is never one that something comes from, and whatever moves to
one place comes from one place. -/
structure Apart (cwd : Place) (ws : List Transfer) : Prop where
  earlier {v w : Transfer} (hv : v ∈ ws) (hw : w ∈ ws) (hmoves : v.Moves cwd) :
    v.goal cwd ≠ w.origin cwd
  same {v w : Transfer} (hv : v ∈ ws) (hw : w ∈ ws) (hmoves : v.Moves cwd)
    (hgoal : w.goal cwd = v.goal cwd) : w.origin cwd = v.origin cwd

instance (cwd : Place) (ws : List Transfer) : Decidable (Apart cwd ws) :=
  decidable_of_iff (∀ v ∈ ws, ∀ w ∈ ws, v.goal cwd ≠ v.origin cwd →
      v.goal cwd ≠ w.origin cwd ∧ (w.goal cwd = v.goal cwd → w.origin cwd = v.origin cwd))
    ⟨fun h => ⟨fun hv hw hmoves => (h _ hv _ hw hmoves).1,
      fun hv hw hmoves hgoal => (h _ hv _ hw hmoves).2 hgoal⟩,
      fun h _ hv _ hw hmoves => ⟨h.earlier hv hw hmoves, h.same hv hw hmoves⟩⟩

/-- At every place there is what was there, or what has arrived there, or a new directory above a
place where something has to be. -/
structure Transferred (ws : List Transfer) (t₀ t : FileTree) : Prop where
  cwd : t.cwd = t₀.cwd
  proper : t.Proper
  cases (p : Place) : t.node? p = t₀.node? p ∨
    (∃ w ∈ ws, w.Moves t₀.cwd ∧ p = w.goal t₀.cwd ∧
      ∃ c, t₀.content w.earlier = .ok c ∧ t.node? p = some (.file c)) ∨
    ∃ w ∈ ws, p <+: (w.goal t₀.cwd).dropLast ∧ t₀.node? p = none ∧ t.node? p = some .directory

/-- What may happen next: no more than before is changed, and what has arrived stays. -/
structure Later (ws : List Transfer) (t₀ t t' : FileTree) : Prop where
  transferred : Transferred ws t₀ t'
  stays {w : Transfer} (hw : w ∈ ws) (ha : w.Arrived t₀ t) : w.Arrived t₀ t'

variable {ws : List Transfer} {t₀ t t' t'' : FileTree} {w : Transfer} {c : Content}

theorem Later.refl (h : Transferred ws t₀ t) : Later ws t₀ t t := ⟨h, fun _ ha => ha⟩

theorem Later.trans (h : Later ws t₀ t t') (h' : Later ws t₀ t' t'') : Later ws t₀ t t'' :=
  ⟨h'.transferred, fun hw ha => h'.stays hw (h.stays hw ha)⟩

theorem transferred_refl (ws : List Transfer) (ht : t.Proper) : Transferred ws t t :=
  ⟨rfl, ht, fun _ => Or.inl rfl⟩

namespace Transferred

theorem content_earlier (h : Transferred ws t₀ t) (ht₀ : t₀.Proper) (ha : Apart t₀.cwd ws)
    (hw : w ∈ ws) : t.content w.earlier = .ok c ↔ t₀.content w.earlier = .ok c := by
  rw [w.content_earlier h.proper, w.content_earlier ht₀, h.cwd]
  rcases h.cases (w.origin t₀.cwd) with heq | ⟨v, hv, hmoves, hp, -⟩ | ⟨v, -, -, hnone, hdir⟩
  · rw [heq]
  · exact absurd hp.symm (ha.earlier hv hw hmoves)
  · simp [hnone, hdir]

theorem isFile_earlier (h : Transferred ws t₀ t) (ht₀ : t₀.Proper) (ha : Apart t₀.cwd ws)
    (hw : w ∈ ws) : t.isFile w.earlier = t₀.isFile w.earlier := by
  rw [Bool.eq_iff_iff, isFile_iff, isFile_iff]
  exact exists_congr fun c => h.content_earlier ht₀ ha hw

theorem arrived_iff (h : Transferred ws t₀ t) : w.Arrived t₀ t ↔
    ∃ c, t₀.content w.earlier = .ok c ∧ t.node? (w.goal t₀.cwd) = some (.file c) := by
  simp only [Transfer.Arrived, w.content_target h.proper, h.cwd]

theorem makeDirectory (h : Transferred ws t₀ t) (hw : w ∈ ws) {p lead : String} {k : Nat}
    {ns : Place} (hd : Direct p lead k ns) (hp : place t₀.cwd p <+: (w.goal t₀.cwd).dropLast)
    (hmade : t.makeDirectory p = .ok t') : Later ws t₀ t t' := by
  obtain ⟨hnone, hparent, rfl⟩ := (h.proper.makeDirectory_ok_iff hd).mp hmade
  rw [h.cwd] at hnone hparent ⊢
  have hne : place t₀.cwd p ≠ [] := by
    intro hnil
    rw [hnil] at hnone
    cases hnone
  have hafter : Transferred ws t₀ (t.put (place t₀.cwd p) .directory) := by
    refine ⟨h.cwd, h.proper.put hne hparent (Or.inl rfl), fun q => ?_⟩
    by_cases hq : q = place t₀.cwd p
    · subst q
      rcases h.cases (place t₀.cwd p) with heq | ⟨v, -, -, -, c, -, hn⟩ | ⟨v, -, -, -, hn⟩
      · exact Or.inr (Or.inr ⟨w, hw, hp, heq ▸ hnone, node?_put_self hne _⟩)
      · rw [hnone] at hn
        cases hn
      · rw [hnone] at hn
        cases hn
    · rw [node?_put_ne hq]
      exact h.cases q
  refine ⟨hafter, fun {v} hv ha => ?_⟩
  obtain ⟨c, hc, hn⟩ := h.arrived_iff.mp ha
  refine hafter.arrived_iff.mpr ⟨c, hc, ?_⟩
  rw [node?_put_ne]
  · exact hn
  · intro heq
    rw [heq, hnone] at hn
    cases hn

theorem write (h : Transferred ws t₀ t) (ht₀ : t₀.Proper) (ha : Apart t₀.cwd ws) (hw : w ∈ ws)
    (hmoves : w.Moves t₀.cwd) (hc : t₀.content w.earlier = .ok c)
    (hwrite : t.write w.target c = .ok t') : Later ws t₀ t t' ∧ w.Arrived t₀ t' := by
  obtain ⟨hput, hdir, hproper⟩ := h.proper.of_write hwrite
  rw [← Transfer.goal, h.cwd] at hput hdir
  have hne : w.goal t₀.cwd ≠ [] := by
    intro hnil
    rw [hnil] at hdir
    exact hdir rfl
  have hself : t'.node? (w.goal t₀.cwd) = some (.file c) := by rw [hput, node?_put_self hne]
  have hafter : Transferred ws t₀ t' := by
    refine ⟨by rw [hput]; exact h.cwd, hproper, fun q => ?_⟩
    by_cases hq : q = w.goal t₀.cwd
    · exact Or.inr (Or.inl ⟨w, hw, hmoves, hq, c, hc, hq ▸ hself⟩)
    · rw [hput, node?_put_ne hq]
      exact h.cases q
  refine ⟨⟨hafter, fun {v} hv harr => ?_⟩, hafter.arrived_iff.mpr ⟨c, hc, hself⟩⟩
  obtain ⟨d, hd, hn⟩ := h.arrived_iff.mp harr
  refine hafter.arrived_iff.mpr ⟨d, hd, ?_⟩
  by_cases hgoal : v.goal t₀.cwd = w.goal t₀.cwd
  · -- The other comes from the same place, so it brought the same.
    have hsame := (v.content_earlier ht₀).mp hd
    rw [ha.same hw hv hmoves hgoal, (w.content_earlier ht₀).mp hc] at hsame
    rw [hgoal, hself, hsame]
  · rwa [hput, node?_put_ne hgoal]

end Transferred

end TemplateHost.Reuse
