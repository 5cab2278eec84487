import SourceAtlas.Proofs.Files.Runs

/-!
# Making directories with their parents

What `Action.makePath` leaves behind, whether it succeeds or fails.

* For any path, it adds nothing but directories, and each of them is what the path text, or the text
  of a path above it, leads to afterwards (`makePath_cases`).
* For a straight location, it adds the missing directories down to some location above it
  or the location itself, and all of them if it succeeds (`makeUpwards_straight`); it
  succeeds unless something other than a directory is in the way or a name or the text
  cannot be used (`makeUpwards_clear`).
-/

namespace SourceAtlas

/-- A path text names an entry, a link at the end not being followed. -/
def FileSystem.ArrivesAt (fs : FileSystem) (path : String) (place : Location) : Prop :=
  fs.walkText false path (FileSystem.bareRoute path) = .ok (.entry place)

/-- Only directories are added, and only at certain places. -/
structure FileSystem.AddsDirectories (fs fs' : FileSystem) (places : Location → Prop) : Prop where
  workingDirectory : fs'.workingDirectory = fs.workingDirectory
  get? : ∀ location, fs'.get? location = fs.get? location ∨
    fs.get? location = none ∧ fs'.get? location = some .directory ∧ places location

namespace FileSystem

variable {fs fs' : FileSystem} {path : String} {place : Location}

lemma ArrivesAt.of_grows (hg : fs.Grows fs') (h : fs.ArrivesAt path place) :
    fs'.ArrivesAt path place :=
  walkText_entry_of_grows hg h

namespace AddsDirectories

variable {places others : Location → Prop}

lemma refl (fs : FileSystem) (places : Location → Prop) : fs.AddsDirectories fs places :=
  ⟨rfl, fun _ => .inl rfl⟩

lemma grows (h : fs.AddsDirectories fs' places) : fs.Grows fs' := by
  constructor
  · exact h.workingDirectory
  · intro location node hn
    rcases h.get? location with he | ⟨hnone, -, -⟩
    · exact ⟨node, he.trans hn, rfl⟩
    · rw [hnone] at hn
      cases hn

lemma mono (h : fs.AddsDirectories fs' places)
    (hp : ∀ location, places location → others location) :
    fs.AddsDirectories fs' others :=
  ⟨h.workingDirectory, fun location => (h.get? location).imp_right fun ⟨h1, h2, h3⟩ =>
    ⟨h1, h2, hp location h3⟩⟩

lemma trans {fs'' : FileSystem} (h : fs.AddsDirectories fs' places)
    (h' : fs'.AddsDirectories fs'' places) : fs.AddsDirectories fs'' places := by
  constructor
  · exact h'.workingDirectory.trans h.workingDirectory
  · intro location
    rcases h'.get? location with he' | ⟨hnone, hd, hp⟩
    · rw [he']
      exact h.get? location
    · rcases h.get? location with he | ⟨hnone', -, -⟩
      · exact .inr ⟨he.symm.trans hnone, hd, hp⟩
      · exact .inr ⟨hnone', hd, hp⟩

lemma insert (h : fs.AddsDirectories fs' places) (hv : fs'.Vacant place) :
    fs.AddsDirectories (fs'.insert place .directory) fun location =>
      places location ∨ location = place := by
  constructor
  · exact (insert_grows hv).workingDirectory.trans h.workingDirectory
  · intro location
    rw [get?_insert hv]
    by_cases he : location = place
    · subst he
      have hnone : fs.get? location = none := by
        rcases h.get? location with heq | ⟨hnone, -, -⟩
        · rw [← heq, hv.get?]
        · exact hnone
      exact .inr ⟨hnone, by rw [if_pos rfl], .inr rfl⟩
    · rw [if_neg he]
      exact (h.get? location).imp_right fun ⟨h1, h2, h3⟩ => ⟨h1, h2, .inl h3⟩

end AddsDirectories

end FileSystem

namespace Action

open FileSystem

variable {fs fs' : FileSystem} {path : String} {reuse : Bool} {slashes : Nat}

/-! ## One directory -/

lemma on_makeOne (reuse : Bool) (path : String) (fs : FileSystem) :
    (makeOne reuse path).on fs =
      match fs.makeDirectory path with
      | .ok fs' => (.ok (), fs')
      | .error (.os code) =>
        if code ≠ .notFound ∧ reuse = true ∧ fs.leadsToDirectory path = true then (.ok (), fs)
        else (.error (.file (.os code)), fs)
      | .error .nullByte => (.error (.file .nullByte), fs) := by
  rw [makeOne, on_bind, on_get]
  dsimp only
  rcases fs.makeDirectory path with (code | _) | fs'
  · by_cases h : code ≠ .notFound ∧ reuse = true ∧ fs.leadsToDirectory path = true
    · simp only [if_pos h, on_pure]
    · simp only [if_neg h, on_throw]
  · rfl
  · rfl

/-- Making one directory adds it, or finds one there already, or fails and changes nothing. -/
lemma makeOne_cases (reuse : Bool) (path : String) (fs : FileSystem) :
    (∃ place, fs.Vacant place ∧ (makeOne reuse path).on fs = (.ok (), fs.insert place .directory) ∧
        fs.makeDirectory path = .ok (fs.insert place .directory) ∧
        (fs.insert place .directory).ArrivesAt path place) ∨
      (reuse = true ∧ fs.leadsToDirectory path = true ∧ (makeOne reuse path).on fs = (.ok (), fs)) ∨
      ∃ failure, (makeOne reuse path).on fs = (.error failure, fs) := by
  rw [on_makeOne]
  cases h : fs.makeDirectory path with
  | ok fs' =>
    obtain ⟨parent, name, hw, hv, rfl⟩ := makeDirectory_eq_ok h
    have hn : (fs.insert (parent ++ [name]) .directory).get? (parent ++ [name]) =
        some .directory := by
      rw [get?_insert hv, if_pos rfl]
    exact .inl ⟨_, hv, rfl, rfl, walkText_filled (insert_grows hv) hn (by simp) hw⟩
  | error e =>
    cases e with
    | nullByte => exact .inr (.inr ⟨_, rfl⟩)
    | os code =>
      by_cases hr : code ≠ .notFound ∧ reuse = true ∧ fs.leadsToDirectory path = true
      · exact .inr (.inl ⟨hr.2.1, hr.2.2, by simp only [if_pos hr]⟩)
      · exact .inr (.inr ⟨.file (.os code), by simp only [if_neg hr]⟩)

/-- Making one directory that must not exist yet adds it, or fails and changes nothing. -/
lemma makeOne_fresh_cases (path : String) (fs : FileSystem) :
    (∃ place, fs.Vacant place ∧ (makeOne false path).on fs = (.ok (), fs.insert place .directory) ∧
        (fs.insert place .directory).ArrivesAt path place) ∨
      ∃ failure, (makeOne false path).on fs = (.error failure, fs) := by
  rcases makeOne_cases false path fs with ⟨place, hv, hrun, -, harr⟩ | ⟨h, -⟩ | h
  · exact .inl ⟨place, hv, hrun, harr⟩
  · cases h
  · exact .inr h

/-! ## A directory and its parents -/

/-- A directory is made in one step, or after its parents if the first attempt misses one. -/
lemma on_makeUpwards_cons (slashes : Nat) (reuse : Bool) (name : String) (above : List String)
    (fs : FileSystem) :
    (makeUpwards slashes reuse (name :: above)).on fs =
          (makeOne reuse (PurePath.toString ⟨slashes, (name :: above).reverse⟩)).on fs ∧
        fs.makeDirectory (PurePath.toString ⟨slashes, (name :: above).reverse⟩) ≠
          .error (.os .notFound) ∨
      (makeUpwards slashes reuse (name :: above)).on fs =
          (makeUpwards slashes true above >>= fun _ =>
            makeOne reuse (PurePath.toString ⟨slashes, (name :: above).reverse⟩)).on fs ∧
        fs.makeDirectory (PurePath.toString ⟨slashes, (name :: above).reverse⟩) =
          .error (.os .notFound) := by
  rw [makeUpwards, on_bind, on_get]
  dsimp only
  split
  · exact .inr ⟨rfl, by assumption⟩
  · exact .inl ⟨rfl, by assumption⟩

/-- The places that the paths above a path lead to. -/
def MadeFor (fs : FileSystem) (slashes : Nat) (names : List String) (place : Location) : Prop :=
  ∃ upper, upper <:+ names ∧ fs.ArrivesAt (PurePath.toString ⟨slashes, upper.reverse⟩) place

lemma MadeFor.exists_take {name : String} {above : List String} {place : Location}
    (h : MadeFor fs slashes above place) :
    ∃ k, k < (name :: above).reverse.length ∧
      fs.ArrivesAt (PurePath.toString ⟨slashes, (name :: above).reverse.take k⟩) place := by
  obtain ⟨upper, ⟨front, rfl⟩, ha⟩ := h
  refine ⟨upper.length, by simp, ?_⟩
  have htake : (name :: (front ++ upper)).reverse.take upper.length = upper.reverse := by
    rw [← List.cons_append, List.reverse_append, List.take_append_of_le_length (by simp),
      List.take_of_length_le (by simp)]
  rw [htake]
  exact ha

lemma MadeFor.of_grows {names : List String} {place : Location}
    (h : MadeFor fs slashes names place) (hg : fs.Grows fs') : MadeFor fs' slashes names place :=
  h.imp fun _ ⟨hu, ha⟩ => ⟨hu, ha.of_grows hg⟩

/-- What a single step adds to what the steps above it have added. -/
lemma makeOne_adds (reuse : Bool) (names : List String)
    (h : fs.AddsDirectories fs' (MadeFor fs' slashes names)) :
    fs.AddsDirectories ((makeOne reuse (PurePath.toString ⟨slashes, names.reverse⟩)).on fs').2
      (MadeFor ((makeOne reuse (PurePath.toString ⟨slashes, names.reverse⟩)).on fs').2
        slashes names) := by
  rcases makeOne_cases reuse (PurePath.toString ⟨slashes, names.reverse⟩) fs' with
    ⟨place, hv, hrun, -, harr⟩ | ⟨-, -, hrun⟩ | ⟨failure, hrun⟩
  · rw [hrun]
    refine (h.insert hv).mono ?_
    intro location hl
    rcases hl with hl | rfl
    · exact hl.of_grows (insert_grows hv)
    · exact ⟨names, List.suffix_refl _, harr⟩
  · rw [hrun]
    exact h
  · rw [hrun]
    exact h

lemma makeUpwards_adds (slashes : Nat) (reuse : Bool) (names : List String) (fs : FileSystem) :
    fs.AddsDirectories ((makeUpwards slashes reuse names).on fs).2
      (MadeFor ((makeUpwards slashes reuse names).on fs).2 slashes names) := by
  induction names generalizing reuse with
  | nil => exact makeOne_adds reuse [] (.refl fs _)
  | cons name above ih =>
    rcases on_makeUpwards_cons slashes reuse name above fs with
      ⟨hrun, -⟩ | ⟨hrun, -⟩
    · rw [hrun]
      exact makeOne_adds reuse (name :: above) (.refl fs _)
    · rw [hrun, on_bind]
      have hup := (ih true).mono fun location hl =>
        (show MadeFor _ slashes (name :: above) location from
          hl.imp fun _ ⟨hu, ha⟩ => ⟨hu.trans (List.suffix_cons _ _), ha⟩)
      rcases h : (makeUpwards slashes true above).on fs with ⟨_ | _, fs₁⟩
      · rw [h] at hup
        exact hup
      · rw [h] at hup
        exact makeOne_adds reuse (name :: above) hup

/-- Making a directory that must not exist yet: directories above it may be added; then it is added
itself, or the run fails. -/
lemma makePath_cases (path : PurePath) (fs : FileSystem) :
    ∃ fs₁, fs.AddsDirectories fs₁ (fun place => ∃ k, k < path.names.length ∧
        fs₁.ArrivesAt (PurePath.toString ⟨path.slashes, path.names.take k⟩) place) ∧
      ((∃ place, fs₁.Vacant place ∧
          (makePath false path).on fs = (.ok (), fs₁.insert place .directory) ∧
          (fs₁.insert place .directory).ArrivesAt path.toString place) ∨
        ∃ failure, (makePath false path).on fs = (.error failure, fs₁)) := by
  obtain ⟨slashes, names⟩ := path
  obtain ⟨reversed, rfl⟩ : ∃ reversed, names = List.reverse reversed := ⟨names.reverse, by simp⟩
  rw [makePath, List.reverse_reverse]
  cases reversed with
  | nil => exact ⟨fs, .refl fs _, makeOne_fresh_cases _ fs⟩
  | cons name above =>
    rcases on_makeUpwards_cons slashes false name above fs with
      ⟨hrun, -⟩ | ⟨hrun, -⟩
    · exact ⟨fs, .refl fs _, hrun ▸ makeOne_fresh_cases _ fs⟩
    · rw [hrun, on_bind]
      have hup := makeUpwards_adds slashes true above fs
      rcases h : (makeUpwards slashes true above).on fs with ⟨_ | _, fs₁⟩
      · rw [h] at hup
        exact ⟨fs₁, hup.mono fun _ hl => hl.exists_take, .inr ⟨_, rfl⟩⟩
      · rw [h] at hup
        exact ⟨fs₁, hup.mono fun _ hl => hl.exists_take, makeOne_fresh_cases _ fs₁⟩

/-- A directory is made in one step if the directory above it is not missing. -/
lemma on_makePath (reuse : Bool) {path : PurePath}
    (h : fs.makeDirectory path.toString ≠ .error (.os .notFound)) :
    (makePath reuse path).on fs = (makeOne reuse path.toString).on fs := by
  obtain ⟨slashes, names⟩ := path
  obtain ⟨reversed, rfl⟩ : ∃ reversed, names = List.reverse reversed := ⟨names.reverse, by simp⟩
  rw [makePath, List.reverse_reverse]
  cases reversed with
  | nil => rfl
  | cons name above =>
    rcases on_makeUpwards_cons slashes reuse name above fs with ⟨hrun, -⟩ | ⟨-, hmissing⟩
    · exact hrun
    · exact absurd hmissing h

lemma makeOne_eq_error {failure : Failure} (h : ((makeOne reuse path).on fs).1 = .error failure) :
    ∃ e, failure = .file e := by
  rw [on_makeOne] at h
  split at h
  · cases h
  · split at h
    · cases h
    · exact ⟨_, (Except.error.inj h).symm⟩
  · exact ⟨_, (Except.error.inj h).symm⟩

lemma makeUpwards_eq_error {names : List String} {failure : Failure}
    (h : ((makeUpwards slashes reuse names).on fs).1 = .error failure) :
    ∃ e, failure = .file e := by
  induction names generalizing reuse with
  | nil => exact makeOne_eq_error h
  | cons name above ih =>
    rcases on_makeUpwards_cons slashes reuse name above fs with ⟨hrun, -⟩ | ⟨hrun, -⟩
    · rw [hrun] at h
      exact makeOne_eq_error h
    · rw [hrun, on_bind] at h
      rcases habove : (makeUpwards slashes true above).on fs with ⟨failure' | ⟨⟩, fs'⟩
      · rw [habove] at h
        obtain rfl := Except.error.inj h
        exact ih (by rw [habove])
      · rw [habove] at h
        exact makeOne_eq_error h

/-- It is the file system that refuses a directory. -/
lemma makePath_eq_error {directory : PurePath} {failure : Failure}
    (h : ((makePath reuse directory).on fs).1 = .error failure) : ∃ e, failure = .file e :=
  makeUpwards_eq_error h

/-- What exists is not made again. -/
lemma makePath_of_exists {path : PurePath}
    (h : fs.makeDirectory path.toString = .error (.os .exists)) :
    (makePath false path).on fs = (.error (.file (.os .exists)), fs) := by
  rw [on_makePath false (by rw [h]; simp), on_makeOne, h]
  simp

end Action

/-! ## Along a straight location -/

namespace FileSystem

/-- The directories that were missing above a location and at it have been added, and
nothing else. -/
structure FilledTo (fs fs' : FileSystem) (bottom : Location) : Prop where
  workingDirectory : fs'.workingDirectory = fs.workingDirectory
  isDirectory : fs'.isDirectory bottom
  get? : ∀ location, fs'.get? location =
    if location <+: bottom ∧ fs.get? location = none then some .directory else fs.get? location

variable {fs fs' : FileSystem} {bottom location : Location} {name : String}

namespace FilledTo

lemma refl (h : fs.isDirectory bottom) : fs.FilledTo fs bottom := by
  refine ⟨rfl, h, fun location => ?_⟩
  rw [if_neg]
  rintro ⟨hp, hn⟩
  have hd : fs.get? location = some .directory := isDirectory_above h hp
  rw [hd] at hn
  cases hn

lemma get?_of_some {node : Node} (h : fs.FilledTo fs' bottom) (hn : fs.get? location = some node) :
    fs'.get? location = some node := by
  rw [h.get?, if_neg, hn]
  rintro ⟨-, hnone⟩
  rw [hn] at hnone
  cases hnone

/-- What does not lie on the way is as it was. -/
lemma get?_of_not_prefix (h : fs.FilledTo fs' bottom) (hp : ¬ location <+: bottom) :
    fs'.get? location = fs.get? location := by
  rw [h.get?, if_neg fun hc => hp hc.1]

lemma grows (h : fs.FilledTo fs' bottom) : fs.Grows fs' :=
  ⟨h.workingDirectory, fun hn => ⟨_, h.get?_of_some hn, rfl⟩⟩

lemma straight (h : fs.FilledTo fs' bottom) (hs : fs.Straight location) :
    fs'.Straight location := by
  intro above target hp hl
  rw [h.get?] at hl
  split at hl
  · cases hl
  · exact hs above target hp hl

lemma not_concat_above (bottom : Location) (name : String) : ¬ (bottom ++ [name]) <+: bottom := by
  intro hp
  have := hp.length_le
  rw [List.length_append, List.length_singleton] at this
  omega

/-- One level further down nothing else changes. -/
lemma get?_concat (h : fs.FilledTo fs' bottom) (he : location ≠ bottom ++ [name]) :
    fs'.get? location = if location <+: bottom ++ [name] ∧ fs.get? location = none then
      some .directory else fs.get? location := by
  have hiff : location <+: bottom ++ [name] ↔ location <+: bottom := by
    rw [List.prefix_concat_iff]
    simp [he]
  rw [h.get?]
  simp only [hiff]

lemma insert (h : fs.FilledTo fs' bottom) (hv : fs'.Vacant (bottom ++ [name])) :
    fs.FilledTo (fs'.insert (bottom ++ [name]) .directory) (bottom ++ [name]) := by
  have hself : (fs'.insert (bottom ++ [name]) .directory).get? (bottom ++ [name]) =
      some .directory := by
    rw [get?_insert hv, if_pos rfl]
  refine ⟨(insert_grows hv).workingDirectory.trans h.workingDirectory, hself, fun location => ?_⟩
  by_cases he : location = bottom ++ [name]
  · have hnone : fs.get? (bottom ++ [name]) = none := by
      rw [← h.get?_of_not_prefix (not_concat_above bottom name), hv.get?]
    rw [he, hself, if_pos ⟨List.prefix_refl _, hnone⟩]
  · rw [get?_insert hv, if_neg he, h.get?_concat he]

/-- A directory that lies below the ones that were added was there before. -/
lemma down (h : fs.FilledTo fs' bottom) (hd : fs'.isDirectory (bottom ++ [name])) :
    fs.FilledTo fs' (bottom ++ [name]) := by
  refine ⟨h.workingDirectory, hd, fun location => ?_⟩
  by_cases he : location = bottom ++ [name]
  · have hsame := h.get?_of_not_prefix (not_concat_above bottom name)
    have hd' : fs'.get? (bottom ++ [name]) = some .directory := hd
    rw [he, if_neg, hsame]
    rintro ⟨-, hnone⟩
    rw [← hsame, hd'] at hnone
    cases hnone
  · exact h.get?_concat he

end FilledTo

end FileSystem

namespace Action

open FileSystem

variable {fs fs' : FileSystem} {reuse : Bool} {location : Location} {name : String}
  {names : List String}

lemma makeOne_straight (hs : fs.Straight location) (hp : ∀ name ∈ location, PlainName name)
    (reuse : Bool) :
    (fs.Vacant location ∧
        (makeOne reuse location.toPath).on fs = (.ok (), fs.insert location .directory)) ∨
      (fs.isDirectory location ∧ (makeOne reuse location.toPath).on fs = (.ok (), fs)) ∨
      ∃ failure, (makeOne reuse location.toPath).on fs = (.error failure, fs) := by
  rcases makeOne_cases reuse location.toPath fs with ⟨place, -, hrun, hmade, -⟩ | ⟨-, hl, hrun⟩ | h
  · obtain ⟨hv, he⟩ := makeDirectory_straight hs hp hmade
    exact .inl ⟨hv, he ▸ hrun⟩
  · exact .inr (.inl ⟨leadsToDirectory_straight hs hp hl, hrun⟩)
  · exact .inr (.inr h)

/-- What a single step adds to what the steps before it have added. -/
lemma makeOne_filled (reuse : Bool) {name : String} {parent : Location} (h : fs.FilledTo fs' parent)
    (hs : fs'.Straight (parent ++ [name])) (hp : ∀ other ∈ parent ++ [name], PlainName other) :
    ∃ bottom, bottom <+: parent ++ [name] ∧
      fs.FilledTo ((makeOne reuse (Location.toPath (parent ++ [name]))).on fs').2 bottom ∧
      (((makeOne reuse (Location.toPath (parent ++ [name]))).on fs').1 = .ok () →
        bottom = parent ++ [name]) := by
  rcases makeOne_straight hs hp reuse with ⟨hv, hrun⟩ | ⟨hd, hrun⟩ | ⟨failure, hrun⟩
  · rw [hrun]
    exact ⟨_, List.prefix_refl _, h.insert hv, fun _ => rfl⟩
  · rw [hrun]
    exact ⟨_, List.prefix_refl _, h.down hd, fun _ => rfl⟩
  · rw [hrun]
    exact ⟨parent, List.prefix_append _ _, h, fun he => by cases he⟩

/-- Along a straight location, the missing directories are added from the top down, and all of them
unless the run fails. -/
lemma makeUpwards_straight (reuse : Bool) (hs : fs.Straight names.reverse)
    (hp : ∀ name ∈ names, PlainName name) :
    ∃ bottom, bottom <+: names.reverse ∧
      fs.FilledTo ((makeUpwards 1 reuse names).on fs).2 bottom ∧
      (((makeUpwards 1 reuse names).on fs).1 = .ok () → bottom = names.reverse) := by
  induction names generalizing reuse with
  | nil =>
    rw [List.reverse_nil] at hs ⊢
    rw [makeUpwards, ← Location.toPath_eq_toString]
    rcases makeOne_straight hs (by simp) reuse with ⟨hv, -⟩ | ⟨-, hrun⟩ | ⟨failure, hrun⟩
    · exact absurd rfl hv.1
    · exact ⟨[], List.prefix_refl _, by rw [hrun]; exact .refl fs.get?_nil, fun _ => rfl⟩
    · exact ⟨[], List.prefix_refl _, by rw [hrun]; exact .refl fs.get?_nil, fun _ => rfl⟩
  | cons name above ih =>
    have htext : PurePath.toString ⟨1, (name :: above).reverse⟩ =
        Location.toPath (above.reverse ++ [name]) := by
      rw [List.reverse_cons, Location.toPath_eq_toString]
    rw [List.reverse_cons] at hs ⊢
    have hp' : ∀ other ∈ above.reverse ++ [name], PlainName other := by simpa [or_comm] using hp
    rcases on_makeUpwards_cons 1 reuse name above fs with
      ⟨hrun, -⟩ | ⟨hrun, -⟩
    · rw [hrun, htext]
      rcases makeOne_straight hs hp' reuse with ⟨hv, hone⟩ | ⟨hd, hone⟩ | ⟨failure, hone⟩
      · have hparent : fs.isDirectory above.reverse := by simpa using hv.2.2.1
        exact makeOne_filled reuse (.refl hparent) hs hp'
      · have hparent : fs.isDirectory above.reverse :=
          isDirectory_above hd (List.prefix_append _ _)
        exact makeOne_filled reuse (.refl hparent) hs hp'
      · rw [hone]
        exact ⟨[], List.nil_prefix, .refl fs.get?_nil, fun he => by cases he⟩
    · obtain ⟨bottom, hb, hfill, hok⟩ := ih true (hs.upper (List.prefix_append _ _))
        fun other ho => hp other (List.mem_cons_of_mem _ ho)
      rw [hrun, on_bind, htext]
      rcases h : (makeUpwards 1 true above).on fs with ⟨_ | _, fs₁⟩
      · rw [h] at hfill
        exact ⟨bottom, hb.trans (List.prefix_append _ _), hfill, fun he => by cases he⟩
      · rw [h] at hfill hok
        obtain rfl := hok rfl
        exact makeOne_filled reuse hfill (hfill.straight hs) hp'

/-! ## Nothing in the way -/

lemma makeDirectory_vacant (hs : fs.Straight location) (hu : location.Utterable)
    (hp : ∀ name ∈ location, PlainName name) (hv : fs.Vacant location) :
    fs.makeDirectory location.toPath = .ok (fs.insert location .directory) := by
  obtain ⟨parent, name, rfl⟩ : ∃ parent name, location = parent ++ [name] :=
    ⟨_, _, (List.dropLast_concat_getLast hv.1).symm⟩
  rw [makeDirectory, Location.bareRoute_toPath hp, walkText_straight_vacant hs hu rfl hv]

lemma makeDirectory_exists (hu : location.Utterable) (hp : ∀ name ∈ location, PlainName name)
    (hd : fs.isDirectory location) : fs.makeDirectory location.toPath = .error (.os .exists) := by
  rw [makeDirectory, Location.bareRoute_toPath hp,
    walkText_straight_entry (straight_of_isDirectory hd) hu hd]

lemma leadsToDirectory_of_isDirectory (hu : location.Utterable)
    (hp : ∀ name ∈ location, PlainName name) (hd : fs.isDirectory location) :
    fs.leadsToDirectory location.toPath = true := by
  have hd' : fs.get? location = some .directory := hd
  have hlocate : fs.locate true location.toPath = .ok location := by
    rw [locate, lookup, Location.route_toPath hp,
      walkText_straight_entry (straight_of_isDirectory hd) hu hd]
  rw [leadsToDirectory, decide_eq_true_eq, node?, hlocate, Except.toOption, Option.bind, hd']

end Action

namespace FileSystem

variable {fs fs' : FileSystem} {above bottom location : Location}

/-- Nothing but directories lies at a location or above it, and names and text can be used. -/
structure Clear (fs : FileSystem) (location : Location) : Prop where
  utterable : location.Utterable
  valid : ∀ name ∈ location, ValidName name
  free : ∀ above, above <+: location → fs.get? above = none ∨ fs.isDirectory above

namespace Clear

lemma plain (h : fs.Clear location) : ∀ name ∈ location, PlainName name :=
  fun name hn => (h.valid name hn).plain

lemma straight (h : fs.Clear location) : fs.Straight location := by
  intro above target hp hl
  rcases h.free above hp with hn | hd
  · rw [hn] at hl
    cases hl
  · have hd' : fs.get? above = some .directory := hd
    rw [hd'] at hl
    cases hl

lemma upper (h : fs.Clear location) (hp : above <+: location) : fs.Clear above :=
  ⟨h.utterable.upper hp, fun name hn => h.valid name (hp.subset hn),
    fun other ho => h.free other (ho.trans hp)⟩

lemma filled (h : fs.Clear location) (hf : fs.FilledTo fs' bottom) : fs'.Clear location := by
  refine ⟨h.utterable, h.valid, fun above ha => ?_⟩
  rw [isDirectory, hf.get?]
  split
  · exact .inr rfl
  · exact h.free above ha

lemma vacant {parent : Location} {name : String} (h : fs.Clear (parent ++ [name]))
    (hd : fs.isDirectory parent) (hn : fs.get? (parent ++ [name]) = none) :
    fs.Vacant (parent ++ [name]) := by
  refine ⟨by simp, fun other ho => ?_, by rwa [List.dropLast_concat], hn⟩
  obtain rfl : name = other := by simpa using ho
  exact h.valid name (by simp)

end Clear

/-- The directories that have been added were missing, and those that were not missing
were directories. -/
lemma FilledTo.free (h : fs.FilledTo fs' bottom) (hp : above <+: bottom) :
    fs.get? above = none ∨ fs.isDirectory above := by
  cases hn : fs.get? above with
  | none => exact .inl rfl
  | some node =>
    have hd : fs'.get? above = some .directory := isDirectory_above h.isDirectory hp
    rw [h.get?_of_some hn] at hd
    exact .inr (hn.trans hd)

lemma makeDirectory_notFound (hc : fs.Clear location) (hm : fs.get? location.dropLast = none) :
    fs.makeDirectory location.toPath = .error (.os .notFound) := by
  have h : fs.advance false [] location = .stopped .notFound :=
    advance_notFound [] hc.valid hc.free fs.get?_nil hm
  rw [makeDirectory, Location.bareRoute_toPath hc.plain, walkText_toPath hc.utterable, linkBudget,
    walk, h]

end FileSystem

namespace Action

open FileSystem

variable {fs : FileSystem} {location : Location} {name : String} {names : List String}

lemma makeOne_clear {parent : Location} (hc : fs.Clear (parent ++ [name]))
    (hd : fs.isDirectory parent) :
    ((makeOne true (Location.toPath (parent ++ [name]))).on fs).1 = .ok () := by
  rw [on_makeOne]
  rcases hc.free _ (List.prefix_refl _) with hn | hn
  · rw [makeDirectory_vacant hc.straight hc.utterable hc.plain (hc.vacant hd hn)]
  · rw [makeDirectory_exists hc.utterable hc.plain hn]
    simp [leadsToDirectory_of_isDirectory hc.utterable hc.plain hn]

/-- If nothing is in the way, a directory is made or found. -/
lemma makeUpwards_clear (hc : fs.Clear names.reverse) :
    ((makeUpwards 1 true names).on fs).1 = .ok () := by
  induction names with
  | nil =>
    have hroot : fs.isDirectory [] := fs.get?_nil
    rw [List.reverse_nil] at hc
    rw [makeUpwards, ← Location.toPath_eq_toString, on_makeOne,
      makeDirectory_exists hc.utterable hc.plain hroot]
    simp [leadsToDirectory_of_isDirectory hc.utterable hc.plain hroot]
  | cons name above ih =>
    have htext : PurePath.toString ⟨1, (name :: above).reverse⟩ =
        Location.toPath (above.reverse ++ [name]) := by
      rw [List.reverse_cons, Location.toPath_eq_toString]
    rw [List.reverse_cons] at hc
    have hup : fs.Clear above.reverse := hc.upper (List.prefix_append _ _)
    rcases on_makeUpwards_cons 1 true name above fs with
      ⟨hrun, hne⟩ | ⟨hrun, -⟩
    · rw [hrun, htext]
      rcases hup.free _ (List.prefix_refl _) with hn | hd
      · rw [htext] at hne
        exact absurd (makeDirectory_notFound hc (by rwa [List.dropLast_concat])) hne
      · exact makeOne_clear hc hd
    · obtain ⟨bottom, -, hfill, hok⟩ := makeUpwards_straight true hup.straight
        fun other ho => hup.plain other (List.mem_reverse.2 ho)
      have hres := ih hup
      obtain rfl := hok hres
      rcases h : (makeUpwards 1 true above).on fs with ⟨res, fs₁⟩
      rw [h] at hres hfill
      obtain rfl : res = .ok () := hres
      rw [hrun, on_bind_ok h, htext]
      exact makeOne_clear (hc.filled hfill) hfill.isDirectory

/-- Making a directory with its parents at a straight location: what it adds, and when
it succeeds. -/
theorem makePath_straight (hs : fs.Straight location) (hp : ∀ name ∈ location, PlainName name) :
    ∃ result fs₁ bottom, (makePath true ⟨1, location⟩).on fs = (result, fs₁) ∧
      bottom <+: location ∧ fs.FilledTo fs₁ bottom ∧ (result = .ok () → bottom = location) ∧
      (fs.Clear location → result = .ok ()) := by
  have hs' : fs.Straight location.reverse.reverse := by rwa [List.reverse_reverse]
  obtain ⟨bottom, hb, hfill, hok⟩ := makeUpwards_straight true hs'
    fun name hn => hp name (List.mem_reverse.1 hn)
  rw [List.reverse_reverse] at hb hok
  refine ⟨_, _, bottom, rfl, hb, hfill, hok, fun hc => makeUpwards_clear ?_⟩
  rwa [List.reverse_reverse]

end Action

end SourceAtlas
