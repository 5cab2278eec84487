import SourceAtlas.Proofs.Cleanup.Removal
import SourceAtlas.Proofs.Files.Loss

/-!
# What a sweep leaves

A sweep tries the paths of the expired jobs one after the other.  The paths are arbitrary texts
without zero characters: they can be missing, too long, below a file, links, inside one another,
or shared by several jobs.  So an attempt can be refused, and what it finds depends on the
attempts before it.

`Thorough` says what can be relied upon nevertheless.  Every path is tried.  One that has not been
refused is not there at the end, and what has gone is what the paths stood for at the beginning.
Both follow from the fact that a sweep never adds anything (`losesOnly_attempted`): what a path
leads to after some attempts it led to before them, and a path that leads nowhere after its own
attempt leads nowhere for the rest of the sweep.

A path that ends in a slash leads to what a link points to.  This is why the names at the ends of
the paths come in where the entries are told by their names.
-/

namespace SourceAtlas

open FileSystem SourceAtlas.Action

variable {fs fs' : FileSystem} {targets : List (Option String)}

/-- A sweep of paths as thorough as the file system allows, and no more. -/
structure Thorough (fs fs' : FileSystem) (targets : List (Option String)) : Prop where
  /-- Every path is tried, whatever came of those before. -/
  tried : fs' = attempted fs targets
  /-- The attempt at a path is refused, or nothing is found by the path at the end. -/
  refused_or_gone : ∀ earlier text later, targets = earlier ++ some text :: later →
    (∃ code, ((removePath (some text)).on (attempted fs earlier)).1 = .error (.file (.os code))) ∨
      ∀ location, fs'.locate false text ≠ .ok location
  /-- If the paths end in names, nothing is lost but the entries of these names and what is below
  those that are directories. -/
  only : (∀ text, some text ∈ targets → PlainName (Path.base text)) →
    fs.LosesOnly fs' fun location =>
      ∃ text place, some text ∈ targets ∧ fs.locate false text = .ok place ∧
        place.getLast? = some (Path.base text) ∧ fs.Spans place location
  /-- If a path leads to a link, nothing but the link is lost for the sake of this path. -/
  link_alone : ∀ text place target, some text ∈ targets → fs.locate false text = .ok place →
    fs.get? place = some (.link target) → ∀ location ≠ place,
      (∀ other, some other ∈ targets → other ≠ text → ¬ fs.StandsFor other location) →
        fs'.get? location = fs.get? location

lemma attempted_append (fs : FileSystem) (earlier later : List (Option String)) :
    attempted fs (earlier ++ later) = attempted (attempted fs earlier) later :=
  List.foldl_append ..

/-- Attempts lose nothing but what the paths stood for before the first of them. -/
lemma losesOnly_attempted (targets : List (Option String)) (fs : FileSystem) :
    fs.LosesOnly (attempted fs targets) fun location =>
      ∃ text, some text ∈ targets ∧ fs.StandsFor text location := by
  induction targets generalizing fs with
  | nil => exact .refl fs _
  | cons target targets ih =>
    have hrest := ih ((removePath target).on fs).2
    cases target with
    | none =>
      refine hrest.mono fun location ⟨text, htext, hstands⟩ => ?_
      exact ⟨text, List.mem_cons_of_mem _ htext, hstands⟩
    | some first =>
      have hfirst := losesOnly_removePath first fs
      refine .trans (hfirst.mono fun location hstands => ?_) (hrest.mono fun location h => ?_)
      · exact ⟨first, List.mem_cons_self .., hstands⟩
      · obtain ⟨text, htext, hstands⟩ := h
        exact ⟨text, List.mem_cons_of_mem _ htext, hstands.of_grows hfirst.grows⟩

/-- A path whose removal was not refused leads nowhere at the end, whatever is tried after it. -/
lemma refused_or_gone {text : String} (hz : '\x00' ∉ text.toList) (fs : FileSystem)
    (later : List (Option String)) :
    (∃ code, ((removePath (some text)).on fs).1 = .error (.file (.os code))) ∨
      ∀ location, (attempted fs (some text :: later)).locate false text ≠ .ok location := by
  obtain ⟨removed, hrun⟩ | hrefused := granted_removePath hz fs
  · refine .inr fun location h => ?_
    have hlater := losesOnly_attempted later ((removePath (some text)).on fs).2
    exact locate_removePath (Prod.ext hrun rfl) location (locate_of_grows hlater.grows h)
  · exact .inl hrefused

theorem attempted_thorough (hz : ∀ text, some text ∈ targets → '\x00' ∉ text.toList)
    (fs : FileSystem) :
    Thorough fs (attempted fs targets) targets where
  tried := rfl
  refused_or_gone := by
    rintro earlier text later rfl
    rw [attempted_append]
    exact refused_or_gone (hz text (by simp)) _ later
  only hnames := by
    refine (losesOnly_attempted targets fs).mono
      fun location ⟨text, htext, place, hlocate, hspans⟩ => ?_
    exact ⟨text, place, htext, hlocate, getLast?_of_locate (hnames text htext) hlocate, hspans⟩
  link_alone := by
    intro text place target htext hlocate hlink location hne hother
    obtain hkept | ⟨-, lost, hlost, hstands⟩ :=
      (losesOnly_attempted targets fs).kept_or_lost location
    · exact hkept
    · by_cases he : lost = text
      · obtain ⟨place', hlocate', hspans⟩ := he ▸ hstands
        obtain rfl : place = place' := Except.ok.inj (hlocate.symm.trans hlocate')
        exact absurd ((spans_link hlink).1 hspans) hne
      · exact absurd hstands (hother lost hlost he)

/-- A sweep comes to an end and removes everything it can of the expired jobs, and nothing else. -/
theorem sweep_thorough (cleanup : Cleanup) (now : Binary64) (fs : FileSystem)
    (hz : ∀ job ∈ cleanup.pending, job.Clean) :
    ∃ fs', (cleanup.sweep now).2.on fs = (.ok (cleanup.expired now).length, fs') ∧
      Thorough fs fs' ((cleanup.expired now).flatMap CleanupJob.targets) := by
  have hexpired : ∀ job ∈ cleanup.expired now, job.Clean := fun job hjob =>
    hz job (List.mem_of_mem_filter hjob)
  refine ⟨_, ?_, attempted_thorough (fun _ ht => clean_of_mem_targets hexpired ht) fs⟩
  rw [Cleanup.sweep]
  dsimp only
  rw [on_bind_ok (removeJobs_clean hexpired fs)]
  rfl

/-- A directory with a file in it, a file, and a link to the directory. -/
def sweptFiles : FileSystem :=
  (FileSystem.empty [] ⟨0⟩).insert ["d"] .directory |>.insert ["d", "a.zip"] (.file ⟨#[0x61]⟩)
    |>.insert ["f"] (.file .empty) |>.insert ["l"] (.link "d")

/-- Jobs with a path below a file, with a path inside the directory of another job, and with
a link. -/
theorem sweep_thorough_entangled :
    let cleanup : Cleanup :=
      ⟨.ofInt 10, [⟨"f/x", some "l", .ofInt 0⟩, ⟨"d/a.zip", some "d", .ofInt 0⟩,
        ⟨"d/a.zip", none, .ofInt 9⟩], .absent⟩
    (∀ job ∈ cleanup.pending, job.Clean) ∧
      ∃ fs', (cleanup.sweep (.ofInt 12)).2.on sweptFiles = (.ok 2, fs') ∧
        Thorough sweptFiles fs' [some "f/x", some "l", some "d/a.zip", some "d"] := by
  intro cleanup
  have hclean : ∀ job ∈ cleanup.pending, job.Clean := by decide +kernel
  have hexpired : cleanup.expired (.ofInt 12) =
      [⟨"f/x", some "l", .ofInt 0⟩, ⟨"d/a.zip", some "d", .ofInt 0⟩] := by decide +kernel
  obtain ⟨fs', hrun, hthorough⟩ := sweep_thorough cleanup (.ofInt 12) sweptFiles hclean
  rw [hexpired] at hrun hthorough
  exact ⟨hclean, fs', hrun, hthorough⟩

end SourceAtlas
