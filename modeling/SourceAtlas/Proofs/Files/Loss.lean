import SourceAtlas.Proofs.Files.Removal

/-!
# What a removal takes away

A removal adds nothing, so a walk that ends at an entry afterwards ended there before
(`FileSystem.LosesOnly.grows`).  Everything here comes from that.

* Whatever `Action.removePath` does and however it ends, nothing is lost but what the path stood for
  (`losesOnly_removePath`).  The second look at a path, after the directory has been emptied, cannot
  find anything that the first did not.
* If it does not fail, no entry is found by the path any more (`locate_removePath`).  This holds for
  a path that is taken to be missing as well.  It can be missing because the directory was on the
  way to itself.
-/

namespace SourceAtlas

open FileSystem

variable {fs fs' : FileSystem} {place location : Location} {text name : String}

namespace FileSystem

/-- An entry and, if it is a directory, what is below it. -/
def Spans (fs : FileSystem) (place location : Location) : Prop :=
  location = place ∨ fs.isDirectory place ∧ place <+: location

/-- What a path stands for: the entry that it leads to, and what is below.  A link at its end is
not followed. -/
def StandsFor (fs : FileSystem) (text : String) (location : Location) : Prop :=
  ∃ place, fs.locate false text = .ok place ∧ fs.Spans place location

/-- A link stands for itself alone. -/
lemma spans_link {target : String} (h : fs.get? place = some (.link target)) :
    fs.Spans place location ↔ location = place := by
  refine or_iff_left ?_
  rintro ⟨hd, -⟩
  rw [isDirectory, h] at hd
  cases hd

/-- An entry below another one is below a directory. -/
lemma spans_of_prefix {node : Node} (hp : place <+: location) (hn : fs.get? location = some node) :
    fs.Spans place location := by
  by_cases he : location = place
  · exact .inl he
  · exact .inr ⟨isDirectory_of_above hn hp (Ne.symm he), hp⟩

lemma Spans.of_grows (hg : fs.Grows fs') (h : fs.Spans place location) : fs'.Spans place location :=
  h.imp_right (And.imp_left hg.isDirectory)

lemma StandsFor.of_grows (hg : fs.Grows fs') (h : fs.StandsFor text location) :
    fs'.StandsFor text location := by
  obtain ⟨place, hlocate, hspans⟩ := h
  exact ⟨place, locate_of_grows hg hlocate, hspans.of_grows hg⟩

/-- A path that ends in a name leads to an entry of that name. -/
lemma getLast?_of_locate (hb : PlainName (Path.base text)) (h : fs.locate false text = .ok place) :
    place.getLast? = some (Path.base text) := by
  obtain ⟨parent, node, rfl, -⟩ := exists_parent_of_walkText (walkText_of_base hb h)
    (lastName?_of_base hb)
  exact List.getLast?_concat

namespace LosesOnly

variable {lost lost' : Location → Prop}

/-- Only what was there can be lost. -/
lemma of_present (h : fs.LosesOnly fs' lost)
    (hl : ∀ location node, fs.get? location = some node → lost location → lost' location) :
    fs.LosesOnly fs' lost' := by
  refine ⟨h.workingDirectory, fun location => ?_⟩
  rcases h.kept_or_lost location with hsame | ⟨hgone, hlost⟩
  · exact .inl hsame
  · cases hn : fs.get? location with
    | none => exact .inl hgone
    | some node => exact .inr ⟨hgone, hl location node hn hlost⟩

end LosesOnly

/-! ## The name of an entry -/

/-- What is lost with an entry that a path leads to. -/
lemma losesOnly_of_locate (hlocate : fs.locate false text = .ok place)
    (h : fs.LosesOnly fs' (place <+: ·)) : fs.LosesOnly fs' (fs.StandsFor text) :=
  h.of_present fun _ _ hn hp => ⟨place, hlocate, spans_of_prefix hp hn⟩

lemma losesOnly_unlink (h : fs.unlink text = .ok fs') : fs.LosesOnly fs' (fs.StandsFor text) := by
  obtain ⟨place, -, hlocate, -, -, hne, rfl⟩ := unlink_eq_ok h
  exact losesOnly_of_locate hlocate (losesOnly_eraseTree fs hne)

lemma losesOnly_removeDirectory (h : fs.removeDirectory text = .ok fs') :
    fs.LosesOnly fs' (fs.StandsFor text) := by
  obtain ⟨place, hw, hlast, hd, rfl⟩ := removeDirectory_eq_ok h
  obtain ⟨last, hl⟩ := Option.ne_none_iff_exists'.1 hlast
  obtain ⟨parent, -, rfl, -⟩ := exists_parent_of_walkText hw hl
  exact losesOnly_of_locate (locate_of_walkText hw hd) (losesOnly_eraseTree fs (by simp))

/-- Once the entry at the end of a path is gone, nothing is found by the path. -/
lemma locate_eraseTree (hw : fs.walkText false text (bareRoute text) = .ok (.entry place))
    (hlast : lastName? text ≠ none) (location : Location) :
    (fs.eraseTree place).locate false text ≠ .ok location := by
  intro h
  obtain ⟨last, hl⟩ := Option.ne_none_iff_exists'.1 hlast
  obtain ⟨parent, -, hparent, -⟩ := exists_parent_of_walkText hw hl
  have hne : place ≠ [] := by simp [hparent]
  obtain ⟨there, hthere⟩ := walkText_of_locate h
  obtain ⟨-, node, -, hnode, -⟩ := exists_parent_of_walkText hthere hl
  -- The walk would have ended there before, so it ends at what was removed.
  have hsame := walkText_entry_of_grows (losesOnly_eraseTree fs hne).grows hthere
  rw [hw] at hsame
  obtain rfl := Arrival.entry.inj (Except.ok.inj hsame)
  rw [(cleared_eraseTree fs hne).gone] at hnode
  cases hnode

lemma locate_of_unlink (h : fs.unlink text = .ok fs') (location : Location) :
    fs'.locate false text ≠ .ok location := by
  obtain ⟨place, hw, hlast, -, -, rfl⟩ := unlink_eq_ok_iff.1 h
  exact locate_eraseTree hw hlast location

lemma locate_of_removeDirectory (h : fs.removeDirectory text = .ok fs') (location : Location) :
    fs'.locate false text ≠ .ok location := by
  obtain ⟨place, hw, hlast, -, rfl⟩ := removeDirectory_eq_ok h
  exact locate_eraseTree hw hlast location

/-! ## Paths that are taken to be missing -/

lemma locate_of_missing
    (h : ∀ there, fs.walkText false text (bareRoute text) ≠ .ok (.entry there))
    (location : Location) :
    fs.locate false text ≠ .ok location := fun hc => by
  obtain ⟨there, hthere⟩ := walkText_of_locate hc
  exact h there hthere

lemma locate_of_unlink_notFound (h : fs.unlink text = .error (.os .notFound))
    (location : Location) :
    fs.locate false text ≠ .ok location := by
  refine locate_of_missing (fun there hw => ?_) location
  rw [unlink, hw] at h
  dsimp only at h
  split_ifs at h <;> cases h

lemma locate_of_removeDirectory_notFound (h : fs.removeDirectory text = .error (.os .notFound))
    (location : Location) : fs.locate false text ≠ .ok location := by
  refine locate_of_missing (fun there hw => ?_) location
  rw [removeDirectory, hw] at h
  dsimp only at h
  split at h
  · cases h
  · cases h
  · cases h
  · split_ifs at h <;> cases h

end FileSystem

namespace Action

/-! ## Removals -/

lemma losesOnly_removeTree (text : String) (fs : FileSystem) :
    fs.LosesOnly ((removeTree text).on fs).2 (fs.StandsFor text) := by
  rw [removeTree, on_bind, on_query]
  cases hl : fs.locate false text with
  | error e => exact .refl fs _
  | ok place =>
    have hemptied := losesOnly_eraseBelow fs place
    have hbelow := losesOnly_of_locate hl hemptied
    dsimp only
    rw [on_bind_ok (on_modify _), on_change]
    cases hr : (fs.eraseBelow place).removeDirectory text with
    | error e => exact hbelow
    | ok fs' =>
      exact hbelow.trans ((losesOnly_removeDirectory hr).mono fun _ h => h.of_grows hemptied.grows)

lemma losesOnly_removeEntry (text : String) (fs : FileSystem) :
    fs.LosesOnly ((removeEntry text).on fs).2 (fs.StandsFor text) := by
  rw [on_removeEntry]
  split
  · exact losesOnly_removeTree text fs
  · rw [on_change]
    cases hu : fs.unlink text with
    | error e => exact .refl fs _
    | ok fs' => exact losesOnly_unlink hu

/-- However the removal of a path ends, only what the path stood for is lost. -/
theorem losesOnly_removePath (text : String) (fs : FileSystem) :
    fs.LosesOnly ((removePath (some text)).on fs).2 (fs.StandsFor text) := by
  by_cases hne : text = ""
  · rw [removePath, if_pos hne]
    exact .refl fs _
  · have hentry := losesOnly_removeEntry text fs
    rw [on_removePath hne]
    generalize (removeEntry text).on fs = outcome at hentry
    obtain ⟨failure | ⟨⟩, fs'⟩ := outcome
    · dsimp only
      split
      · exact hentry
      · exact hentry
    · exact hentry

/-- What is removed, or found to be missing, is not there afterwards. -/
def Settled (text : String) (outcome : Except Failure Unit × FileSystem) : Prop :=
  outcome.1 = .ok () ∨ outcome.1 = .error (.file (.os .notFound)) →
    ∀ location, outcome.2.locate false text ≠ .ok location

lemma settled_change {step : FileSystem → Except FileError FileSystem}
    (hok : ∀ fs', step fs = .ok fs' → ∀ location, fs'.locate false text ≠ .ok location)
    (hmissing : step fs = .error (.os .notFound) →
      ∀ location, fs.locate false text ≠ .ok location) :
    Settled text ((change step).on fs) := by
  rw [on_change]
  cases hs : step fs with
  | ok fs' => exact fun _ => hok fs' hs
  | error e =>
    rintro (h | h)
    · cases h
    · have he : e = .os .notFound := by simpa using h
      exact hmissing (he ▸ hs)

lemma settled_removeEntry (text : String) (fs : FileSystem) :
    Settled text ((removeEntry text).on fs) := by
  rw [on_removeEntry]
  split
  · rw [removeTree, on_bind, on_query]
    cases hl : fs.locate false text with
    | error e =>
      intro _ location h
      dsimp only at h
      rw [hl] at h
      cases h
    | ok place =>
      dsimp only
      rw [on_bind_ok (on_modify _)]
      exact settled_change (fun _ => locate_of_removeDirectory) locate_of_removeDirectory_notFound
  · exact settled_change (fun _ => locate_of_unlink) locate_of_unlink_notFound

/-- A removal that does not fail leaves nothing to be found by the path. -/
theorem locate_removePath {removed : Bool} (h : (removePath (some text)).on fs = (.ok removed, fs'))
    (location : Location) : fs'.locate false text ≠ .ok location := by
  by_cases hne : text = ""
  · subst hne
    rw [locate, lookup, walkText]
    simp [checkText]
  · have hentry := settled_removeEntry text fs
    rw [on_removePath hne] at h
    generalize (removeEntry text).on fs = outcome at h hentry
    obtain ⟨failure | ⟨⟩, files⟩ := outcome
    · dsimp only at h
      split at h
      · rename_i hmissing
        obtain rfl := (Prod.ext_iff.1 h).2
        exact hentry (.inr (by rw [hmissing])) location
      · cases h
    · obtain rfl := (Prod.ext_iff.1 h).2
      exact hentry (.inl rfl) location

end Action

end SourceAtlas
