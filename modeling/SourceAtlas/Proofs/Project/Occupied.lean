import SourceAtlas.Proofs.Project.Analysis

/-!
# Where something stands already

The analysis of an archive needs a directory that does not exist.  Where a path leads to
anything, or names anything that does not lead anywhere, the analysis fails; and what
stood there is left as it was, a directory with its content as well as a pipe or a link
to something (`analyzeArchive_occupied`).

There is one exception.  A link that leads nowhere does not count as existing for the test at
the start, but does for the directory that is to be made; and the removal that follows takes
away names, not what they lead to.  So such a link is lost, though the analysis did not make
it (`analyzeArchive_dangling`, `link_is_lost`).
-/

namespace SourceAtlas

open FileSystem SourceAtlas.Action

variable {fs fs' : FileSystem} {text : String}

/-! ## Paths that reach something -/

/-- A path names a link and leads nowhere. -/
def FileSystem.Dangles (fs : FileSystem) (text : String) : Prop :=
  fs.leadsToLink text = true ∧ fs.pathExists text = false

instance (fs : FileSystem) (text : String) : Decidable (fs.Dangles text) :=
  inferInstanceAs (Decidable (_ ∧ _))

namespace FileSystem

lemma exists_of_leadsToLink (h : fs.leadsToLink text = true) :
    ∃ location target, fs.locate false text = .ok location ∧
      fs.get? location = some (.link target) := by
  unfold leadsToLink at h
  cases hlocate : fs.locate false text with
  | error e =>
    rw [hlocate] at h
    cases h
  | ok location =>
    rw [hlocate, Except.toOption, Option.bind] at h
    split at h
    · rename_i target hnode
      exact ⟨location, target, rfl, hnode⟩
    · cases h

lemma leadsToDirectory_of_missing (h : fs.pathExists text = false) :
    fs.leadsToDirectory text = false := by
  rw [pathExists, Option.isSome_eq_false_iff, Option.isNone_iff_eq_none] at h
  rw [leadsToDirectory, h]
  rfl

lemma Dangles.reaches (h : fs.Dangles text) : fs.Reaches text := by
  obtain ⟨location, target, hlocate, hlink⟩ := exists_of_leadsToLink h.1
  exact .of_walk (walkText_eq_ok_iff.1 (walkText_of_link hlocate hlink).2).2

/-- Only a link that leads nowhere can be removed by a path that leads nowhere. -/
lemma dangles_of_unlink (hmissing : fs.pathExists text = false) (h : fs.unlink text = .ok fs') :
    fs.Dangles text := by
  obtain ⟨location, node, hlocate, hnode, hfollowed, -, -⟩ := unlink_eq_ok h
  refine ⟨?_, hmissing⟩
  by_cases hlink : ∃ target, node = .link target
  · obtain ⟨target, rfl⟩ := hlink
    rw [leadsToLink, hlocate, Except.toOption, Option.bind, hnode]
  · have hfound := hfollowed fun target he => hlink ⟨target, he⟩
    rw [pathExists, node?, hfound, Except.toOption, Option.bind, hnode] at hmissing
    cases hmissing

end FileSystem

/-! ## The analysis -/

/-- Where something stands, the analysis of an archive fails and changes nothing, unless it is a
link that leads nowhere. -/
theorem analyzeArchive_occupied (libraries : Libraries) (config : Config) (archive : String)
    (jobId : Option String)
    (hthere : fs.Reaches text) (hlink : ¬ fs.Dangles text) :
    ∃ failure, (analyzeArchive libraries config archive text jobId).on fs =
      (.error failure, fs) := by
  cases hexists : fs.pathExists text with
  | true => exact ⟨_, analyzeArchive_exists libraries config archive jobId hexists⟩
  | false =>
    obtain ⟨failure, hmade⟩ := makePath_of_reached hthere
    obtain ⟨failure', hrun⟩ := analyzeArchive_unmade libraries config archive jobId hexists hmade
    have hkept : ((removePath (some text)).on fs).2 = fs :=
      removePath_of_unlink (leadsToDirectory_of_missing hexists) fun _ hunlink =>
        hlink (dangles_of_unlink hexists hunlink)
    exact ⟨failure', by rw [hrun, hkept]⟩

/-- A directory with a file, and a link to the directory. -/
def linkedStart : FileSystem :=
  ((((FileSystem.empty [] ⟨0⟩).insert ["kept"] .directory).insert ["kept", "a.js"]
    (.file ⟨#[0x61]⟩)).insert ["job"] (.link "kept"))

/-- What a link leads to counts as there. -/
theorem analyzeArchive_occupied_link :
    linkedStart.Reaches "job" ∧ ¬ linkedStart.Dangles "job" ∧
      ∃ failure, (analyzeArchive .own {} "a.zip" "job" none).on linkedStart =
        (.error failure, linkedStart) := by
  have hthere : linkedStart.Reaches "job" := ⟨["job"], by decide +kernel⟩
  have hlink : ¬ linkedStart.Dangles "job" := by decide +kernel
  exact ⟨hthere, hlink, analyzeArchive_occupied .own {} "a.zip" none hthere hlink⟩

/-! ## Links that lead nowhere -/

/-- A link that leads nowhere is removed by the analysis, which fails. -/
theorem analyzeArchive_dangling (libraries : Libraries) (config : Config) (archive : String)
    (jobId : Option String)
    (hname : lastName? text ≠ none) (h : fs.Dangles text) :
    ∃ failure fs' location target, fs.locate false text = .ok location ∧
      fs.get? location = some (.link target) ∧
      (analyzeArchive libraries config archive text jobId).on fs = (.error failure, fs') ∧
      fs.Cleared fs' location := by
  obtain ⟨location, target, hlocate, hlink⟩ := exists_of_leadsToLink h.1
  obtain ⟨failure, hmade⟩ := makePath_of_reached h.reaches
  obtain ⟨failure', hrun⟩ := analyzeArchive_unmade libraries config archive jobId h.2 hmade
  obtain ⟨hslash, hwalk⟩ := walkText_of_link hlocate hlink
  have hnot : ¬ fs.isDirectory location := by
    rw [isDirectory, hlink]
    simp
  have hne : location ≠ [] := by
    rintro rfl
    exact hnot (get?_nil fs)
  have hempty : text ≠ "" := by
    rintro rfl
    exact hname rfl
  have hentry : (removeEntry text).on fs = (.ok (), fs.eraseTree location) := by
    rw [on_removeEntry_of_not_directory (leadsToDirectory_of_missing h.2), on_change, unlink, hwalk]
    simp [hname, hnot, hslash]
  refine ⟨failure', fs.eraseTree location, location, target, hlocate, hlink, ?_,
    cleared_eraseTree fs hne⟩
  rw [hrun, on_removePath hempty, hentry]

/-- A link to nothing. -/
def danglingStart : FileSystem :=
  (FileSystem.empty [] ⟨0⟩).insert ["job"] (.link "nowhere")

/-- A link that stood before the analysis of an archive is gone afterwards. -/
theorem link_is_lost :
    danglingStart.get? ["job"] = some (.link "nowhere") ∧
      ∃ failure fs', (analyzeArchive .own {} "a.zip" "job" none).on danglingStart =
        (.error failure, fs') ∧ fs'.get? ["job"] = none := by
  have hname : lastName? "job" ≠ none := by decide +kernel
  have hdangles : danglingStart.Dangles "job" := by decide +kernel
  have hplace : danglingStart.locate false "job" = .ok ["job"] := by decide +kernel
  obtain ⟨failure, fs', location, target, hlocate, -, hrun, hcleared⟩ :=
    analyzeArchive_dangling .own {} "a.zip" none hname hdangles
  obtain rfl := Except.ok.inj (hplace.symm.trans hlocate)
  exact ⟨by decide +kernel, failure, fs', hrun, hcleared.gone⟩

end SourceAtlas
