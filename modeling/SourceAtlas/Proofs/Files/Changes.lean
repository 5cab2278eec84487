import SourceAtlas.Proofs.Files.Straight

/-!
# What a run has changed

Runs are compared by what stands afterwards.  `FileSystem.Alike` says that nothing differs.
`FileSystem.ChangesOnly` confines the difference to one place and what is below it; a tree may have
been put there (`FileSystem.Planted`) or removed from there (`FileSystem.Cleared`).

Putting a tree where nothing stood and removing it again leaves everything as it was
(`FileSystem.Cleared.alike`).
-/

namespace SourceAtlas.FileSystem

variable {base fs fs' fs'' : FileSystem} {place : Location}

/-- File systems in which the same things stand.  They may differ in the times at which things were
changed. -/
structure Alike (fs fs' : FileSystem) : Prop where
  workingDirectory : fs'.workingDirectory = fs.workingDirectory
  get? : ∀ location, fs'.get? location = fs.get? location

namespace Alike

lemma refl (fs : FileSystem) : fs.Alike fs :=
  ⟨rfl, fun _ => rfl⟩

lemma grows (h : fs.Alike fs') : fs.Grows fs' :=
  ⟨h.workingDirectory, fun hn => ⟨_, (h.get? _).trans hn, rfl⟩⟩

end Alike

/-- Nothing has changed except at a place and below it. -/
structure ChangesOnly (fs fs' : FileSystem) (place : Location) : Prop where
  workingDirectory : fs'.workingDirectory = fs.workingDirectory
  outside : ∀ location, ¬ place <+: location → fs'.get? location = fs.get? location

namespace ChangesOnly

lemma trans (h : fs.ChangesOnly fs' place) (h' : fs'.ChangesOnly fs'' place) :
    fs.ChangesOnly fs'' place :=
  ⟨h'.workingDirectory.trans h.workingDirectory, fun location hp =>
    (h'.outside location hp).trans (h.outside location hp)⟩

lemma widen {above : Location} (h : fs.ChangesOnly fs' place) (hp : above <+: place) :
    fs.ChangesOnly fs' above :=
  ⟨h.workingDirectory, fun location ho => h.outside location fun hc => ho (hp.trans hc)⟩

/-- Changes where nothing stood before hide nothing. -/
lemma grows (h : fs.ChangesOnly fs' place) (hg : base.Grows fs) (hnone : base.get? place = none) :
    base.Grows fs' := by
  constructor
  · exact h.workingDirectory.trans hg.workingDirectory
  · intro location node hn
    have hp : ¬ place <+: location := fun hp => by
      rw [get?_eq_none_of_above hnone hp] at hn
      cases hn
    obtain ⟨node', hn', hk⟩ := hg.kind hn
    exact ⟨node', (h.outside location hp).trans hn', hk⟩

end ChangesOnly

/-- A tree has been put at a place where nothing stood. -/
structure Planted (fs fs' : FileSystem) (place : Location) : Prop extends
    ChangesOnly fs fs' place where
  missing : fs.get? place = none
  isDirectory : fs'.isDirectory place

/-- What stood at a place has been removed, with everything below it. -/
structure Cleared (fs fs' : FileSystem) (place : Location) : Prop extends
    ChangesOnly fs fs' place where
  gone : fs'.get? place = none

/-- What is put where nothing stood and removed again leaves no trace. -/
lemma Cleared.alike (h : fs'.Cleared fs'' place) (hc : fs.ChangesOnly fs' place)
    (hnone : fs.get? place = none) : fs.Alike fs'' := by
  have hboth := hc.trans h.toChangesOnly
  constructor
  · exact hboth.workingDirectory
  · intro location
    by_cases hp : place <+: location
    · rw [get?_eq_none_of_above h.gone hp, get?_eq_none_of_above hnone hp]
    · exact hboth.outside location hp

lemma cleared_eraseTree (fs : FileSystem) (hne : place ≠ []) :
    fs.Cleared (fs.eraseTree place) place := by
  refine ⟨⟨rfl, fun location hp => ?_⟩, ?_⟩
  · by_cases hnil : location = []
    · rw [hnil, get?_nil, get?_nil]
    · rw [get?_eraseTree hnil, if_neg hp]
  · rw [get?_eraseTree hne, if_pos (List.prefix_refl _)]

lemma changesOnly_eraseBelow (fs : FileSystem) (place : Location) :
    fs.ChangesOnly (fs.eraseBelow place) place := by
  constructor
  · exact rfl
  · intro location hp
    by_cases hnil : location = []
    · rw [hnil, get?_nil, get?_nil]
    · rw [get?_eraseBelow hnil, if_neg fun hc => hp hc.1]

/-! ## Losses -/

/-- Nothing has changed except that entries are gone which stood at certain places. -/
structure LosesOnly (fs fs' : FileSystem) (lost : Location → Prop) : Prop where
  workingDirectory : fs'.workingDirectory = fs.workingDirectory
  kept_or_lost : ∀ location, fs'.get? location = fs.get? location ∨
    fs'.get? location = none ∧ lost location

namespace LosesOnly

variable {lost lost' : Location → Prop}

lemma refl (fs : FileSystem) (lost : Location → Prop) : fs.LosesOnly fs lost :=
  ⟨rfl, fun _ => .inl rfl⟩

lemma mono (h : fs.LosesOnly fs' lost) (hl : ∀ location, lost location → lost' location) :
    fs.LosesOnly fs' lost' :=
  ⟨h.workingDirectory, fun location => (h.kept_or_lost location).imp_right
    (And.imp_right (hl location))⟩

lemma trans (h : fs.LosesOnly fs' lost) (h' : fs'.LosesOnly fs'' lost) :
    fs.LosesOnly fs'' lost := by
  refine ⟨h'.workingDirectory.trans h.workingDirectory, fun location => ?_⟩
  rcases h'.kept_or_lost location with hsame | hgone
  · rw [hsame]
    exact h.kept_or_lost location
  · exact .inr hgone

/-- What is left was there before. -/
lemma grows (h : fs.LosesOnly fs' lost) : fs'.Grows fs := by
  refine ⟨h.workingDirectory.symm, fun {location node} hn => ⟨node, ?_, rfl⟩⟩
  rcases h.kept_or_lost location with hsame | ⟨hgone, -⟩
  · rw [← hsame, hn]
  · rw [hgone] at hn
    cases hn

end LosesOnly

lemma losesOnly_eraseTree (fs : FileSystem) (hne : place ≠ []) :
    fs.LosesOnly (fs.eraseTree place) (place <+: ·) := by
  refine ⟨rfl, fun location => ?_⟩
  by_cases hp : place <+: location
  · exact .inr ⟨get?_eq_none_of_above (cleared_eraseTree fs hne).gone hp, hp⟩
  · exact .inl ((cleared_eraseTree fs hne).outside location hp)

lemma losesOnly_eraseBelow (fs : FileSystem) (place : Location) :
    fs.LosesOnly (fs.eraseBelow place) (place <+: ·) := by
  refine ⟨rfl, fun location => ?_⟩
  by_cases hnil : location = []
  · rw [hnil, get?_nil, get?_nil]
    exact .inl rfl
  · rw [get?_eraseBelow hnil]
    split
    · rename_i hp
      exact .inr ⟨rfl, hp.1⟩
    · exact .inl rfl

end SourceAtlas.FileSystem
