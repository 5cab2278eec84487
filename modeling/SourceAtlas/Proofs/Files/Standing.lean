import SourceAtlas.Proofs.Files.Directories
import SourceAtlas.Proofs.Files.InDirectory

/-!
# Directories that stand

A service asks for its directories again and again.  The first time they may have to be
made, with the directories above them; then directories are added and nothing else
changes (`Action.makeAll_adds`).  From then on a directory stands, so asking for it
does nothing (`Action.makeAll_standing`).

That a directory stands is told by looking it up (`FileSystem.leadsTo_iff_locate`).  Its
text may end in slashes or in names that lead nowhere, and its parents are found by
cutting names off the text; each of them is found because the walk to the directory
comes by (`FileSystem.LeadsTo.pathExists_above`).
-/

namespace SourceAtlas

open FileSystem

namespace FileSystem

variable {fs fs' : FileSystem} {dir head tail : String} {place : Location}

/-- A directory at the end of a walk is found whether or not slashes trail the text. -/
lemma leadsTo_iff_locate :
    fs.LeadsTo dir place ↔ fs.locate true dir = .ok place ∧ fs.isDirectory place := by
  rw [locate, lookup]
  constructor
  · intro h
    have hw : fs.walkText true dir (route dir) = .ok (.entry place) := by
      rcases route_cases dir with hr | hr
      · exact walkText_eq_ok_iff.2 ⟨h.text, hr ▸ h.walk⟩
      · rw [hr, walkText_eq_ok_iff]
        exact ⟨h.text, walk_dot true h.walk h.isDirectory⟩
    rw [hw]
    exact ⟨rfl, h.isDirectory⟩
  · rintro ⟨h, hd⟩
    have hw : fs.walkText true dir (route dir) = .ok (.entry place) := by
      split at h
      · cases h
      · rename_i hw
        rw [hw, Except.ok.inj h]
      · cases h
    obtain ⟨htext, hwalk⟩ := walkText_eq_ok_iff.1 hw
    refine ⟨htext, ?_, hd⟩
    rcases route_cases dir with hr | hr
    · rw [← hr, hwalk]
    · rw [hr] at hwalk
      obtain ⟨middle, hmiddle, hdir⟩ := walk_front_isDirectory (by simp) hwalk
      rw [walk_dot true hmiddle hdir] at hwalk
      rw [hmiddle, hwalk]

namespace LeadsTo

/-- A directory that is found by the names of a text that mean something is found by the text. -/
lemma of_arrivesAt (hne : (PurePath.ofString dir).names ≠ []) (hc : checkText dir = .ok ())
    (ha : fs.ArrivesAt (PurePath.ofString dir).toString place) (hd : fs.isDirectory place) :
    fs.LeadsTo dir place := by
  have hwalk := walk_followed hd (walkText_eq_ok_iff.1 ha).2
  rw [PurePath.bareRoute_toString hne fun _ => PurePath.names_ofString, PurePath.names_eq_filter,
    origin, PurePath.isAbsolute_ofString hne, ← origin] at hwalk
  exact ⟨hc, walk_dotted (.filter _) hd hwalk, hd⟩

/-- A path leads to one directory. -/
lemma unique {other : Location} (h : fs.LeadsTo dir place) (h' : fs.LeadsTo dir other) :
    place = other :=
  Except.ok.inj ((leadsTo_iff_locate.1 h).1.symm.trans (leadsTo_iff_locate.1 h').1)

lemma leadsToDirectory (h : fs.LeadsTo dir place) : fs.leadsToDirectory dir = true := by
  have hd : fs.get? place = some .directory := h.isDirectory
  rw [FileSystem.leadsToDirectory, node?, (leadsTo_iff_locate.1 h).1, Except.toOption, Option.bind,
    hd]
  rfl

/-- A directory that stands is not made again. -/
lemma makeDirectory_exists (h : fs.LeadsTo dir place) :
    fs.makeDirectory dir = .error (.os .exists) := by
  obtain ⟨there, hw⟩ := walk_unfollowed h.walk
  rw [makeDirectory, FileSystem.walkText, h.text, hw]

/-- The directory above one that stands is found by a beginning of its text. -/
lemma pathExists_above {rest : List Char} (h : fs.LeadsTo dir place) (hne : head ≠ "")
    (ht : dir.toList = head.toList ++ rest) (hb : bareRoute dir = bareRoute head ++ [tail])
    (hr : route head = bareRoute head) : fs.pathExists head = true := by
  have htext : checkText head = .ok () := checkText_of_prefix h.text ht hne
  have horigin : origin head fs.workingDirectory = origin dir fs.workingDirectory := by
    obtain ⟨c, cs, hc⟩ : ∃ c cs, head.toList = c :: cs :=
      List.exists_cons_of_ne_nil (by simpa using hne)
    rw [origin, origin, Path.isAbsolute_eq, Path.isAbsolute_eq, ht, hc, List.cons_append,
      List.head?_cons, List.head?_cons]
  have hw := h.walk
  rw [hb] at hw
  obtain ⟨middle, hmiddle, hd⟩ := walk_front_isDirectory (by simp) hw
  have hd' : fs.get? middle = some .directory := hd
  have hlocate : fs.locate true head = .ok middle := by
    rw [locate, lookup, hr, FileSystem.walkText, htext, horigin, hmiddle]
  rw [pathExists, node?, hlocate, Except.toOption, Option.bind, hd']
  rfl

end LeadsTo

end FileSystem

namespace Action

variable {fs : FileSystem} {dir path : String} {place : Location}

/-! ## Asking again -/

/-- The directory part of a path is a beginning of it that lacks its last name. -/
lemma headAndTail_spec (path : String) (ht : (headAndTail path).2 ≠ "") :
    (∃ rest, path.toList = (headAndTail path).1.toList ++ rest) ∧
      bareRoute path = bareRoute (headAndTail path).1 ++ [(headAndTail path).2] ∧
      route (headAndTail path).1 = bareRoute (headAndTail path).1 := by
  rw [headAndTail] at ht ⊢
  split at ht
  · next hbase =>
    rw [if_pos hbase]
    dsimp only at ht ⊢
    obtain ⟨rest, hrest⟩ := Path.directory_starts path
    obtain ⟨rest', hrest'⟩ := Path.directory_starts (Path.directory path)
    refine ⟨⟨rest' ++ rest, by rw [hrest, hrest', List.append_assoc]⟩, ?_, Path.route_directory _⟩
    rw [Path.bareRoute_of_base_empty hbase, Path.bareRoute_of_base ht]
  · next hbase =>
    rw [if_neg hbase]
    exact ⟨Path.directory_starts path, Path.bareRoute_of_base hbase, Path.route_directory path⟩

/-- The directory part starts where the path starts. -/
lemma isAbsolute_head (path : String) :
    Path.isAbsolute (headAndTail path).1 = Path.isAbsolute path := by
  rw [headAndTail]
  split
  · exact (Path.isAbsolute_directory _).trans (Path.isAbsolute_directory path)
  · exact Path.isAbsolute_directory path

lemma on_makeOrReuse (path : String) (fs : FileSystem) :
    (makeOrReuse path).on fs =
      match fs.makeDirectory path with
      | .ok fs' => (.ok (), fs')
      | .error (.os code) =>
        if fs.leadsToDirectory path = true then (.ok (), fs) else (.error (.file (.os code)), fs)
      | .error .nullByte => (.error (.file .nullByte), fs) := by
  rw [makeOrReuse, on_bind, on_get]
  dsimp only
  rcases fs.makeDirectory path with (code | _) | fs'
  · by_cases h : fs.leadsToDirectory path = true
    · simp only [if_pos h, on_pure]
    · simp only [if_neg h, on_throw]
  · rfl
  · rfl

/-- A directory is made, after the ones above it if they cannot be found. -/
lemma on_makeAllFrom_succ (fuel : Nat) (path : String) (fs : FileSystem) :
    (makeAllFrom (fuel + 1) path).on fs =
      if (headAndTail path).1 ≠ "" ∧ (headAndTail path).2 ≠ "" ∧
          fs.pathExists (headAndTail path).1 = false then
        (tryCatch (makeAllFrom fuel (headAndTail path).1) (fun failure =>
            if failure = .file (.os .exists) then pure () else throw failure) >>= fun _ =>
          if (headAndTail path).2 = "." then pure () else makeOrReuse path).on fs
      else (makeOrReuse path).on fs := by
  rw [makeAllFrom, on_bind_ok on_get]
  split
  · rfl
  · rfl

/-- Asking for a directory that stands does nothing. -/
theorem makeAll_standing (h : fs.LeadsTo dir place) : (makeAll dir).on fs = (.ok (), fs) := by
  have hreuse : (makeOrReuse dir).on fs = (.ok (), fs) := by
    rw [on_makeOrReuse, h.makeDirectory_exists]
    dsimp only
    rw [if_pos h.leadsToDirectory]
  unfold makeAll
  cases dir.length with
  | zero => exact hreuse
  | succ fuel =>
    rw [on_makeAllFrom_succ, if_neg, hreuse]
    rintro ⟨hh, ht, hmissing⟩
    obtain ⟨⟨rest, hrest⟩, hbare, hroute⟩ := headAndTail_spec dir ht
    rw [h.pathExists_above hh hrest hbare hroute] at hmissing
    cases hmissing

/-! ## Asking for the first time -/

/-- A place that a beginning of a path arrives at. -/
def AlongPath (fs : FileSystem) (path : String) (place : Location) : Prop :=
  ∃ head rest, path.toList = head.toList ++ rest ∧ fs.ArrivesAt head place

lemma AlongPath.of_grows {fs' : FileSystem} (h : AlongPath fs path place) (hg : fs.Grows fs') :
    AlongPath fs' path place :=
  h.imp fun _ h => h.imp fun _ ⟨ht, ha⟩ => ⟨ht, ha.of_grows hg⟩

lemma alongPath_head (ht : (headAndTail path).2 ≠ "")
    (h : AlongPath fs (headAndTail path).1 place) :
    AlongPath fs path place := by
  obtain ⟨⟨rest, hrest⟩, -⟩ := headAndTail_spec path ht
  obtain ⟨head, rest', hhead, ha⟩ := h
  exact ⟨head, rest' ++ rest, by rw [hrest, hhead, List.append_assoc], ha⟩

lemma makeOrReuse_adds (path : String) (fs : FileSystem) :
    fs.AddsDirectories ((makeOrReuse path).on fs).2
      (AlongPath ((makeOrReuse path).on fs).2 path) := by
  rw [on_makeOrReuse]
  cases h : fs.makeDirectory path with
  | ok fs' =>
    obtain ⟨parent, name, hw, hv, rfl⟩ := makeDirectory_eq_ok h
    refine ((AddsDirectories.refl fs fun _ => False).insert hv).mono ?_
    rintro location (hfalse | rfl)
    · exact hfalse.elim
    · have hn : (fs.insert (parent ++ [name]) .directory).get? (parent ++ [name]) =
          some .directory := by
        rw [get?_insert hv, if_pos rfl]
      exact ⟨path, [], by simp, walkText_filled (insert_grows hv) hn (by simp) hw⟩
  | error e =>
    cases e with
    | nullByte => exact .refl fs _
    | os code =>
      dsimp only
      split
      · exact .refl fs _
      · exact .refl fs _

/-- How a directory is made: in one step, or after the directory above it, unless that fails for
another reason than that something exists. -/
lemma makeAllFrom_cases (fuel : Nat) (path : String) (fs : FileSystem) :
    (makeAllFrom (fuel + 1) path).on fs = (makeOrReuse path).on fs ∨
      (headAndTail path).2 ≠ "" ∧
        ∃ result fs₁, (makeAllFrom fuel (headAndTail path).1).on fs = (result, fs₁) ∧
          ((∃ failure, result = .error failure ∧ failure ≠ .file (.os .exists) ∧
              (makeAllFrom (fuel + 1) path).on fs = (.error failure, fs₁)) ∨
            ((result = .ok () ∨ result = .error (.file (.os .exists))) ∧
              (makeAllFrom (fuel + 1) path).on fs =
                if (headAndTail path).2 = "." then (.ok (), fs₁) else
                  (makeOrReuse path).on fs₁)) := by
  rw [on_makeAllFrom_succ]
  split
  · rename_i hcond
    refine .inr ⟨hcond.2.1, ?_⟩
    have hthen (fs₁ : FileSystem) :
        (if (headAndTail path).2 = "." then pure () else makeOrReuse path : Action Unit).on fs₁ =
          if (headAndTail path).2 = "." then (.ok (), fs₁) else (makeOrReuse path).on fs₁ := by
      split <;> rfl
    rw [on_bind, on_tryCatch]
    rcases (makeAllFrom fuel (headAndTail path).1).on fs with ⟨failure | ⟨⟩, fs₁⟩
    · by_cases he : failure = .file (.os .exists)
      · refine ⟨_, fs₁, rfl, .inr ⟨.inr (by rw [he]), ?_⟩⟩
        dsimp only
        rw [if_pos he]
        exact hthen fs₁
      · refine ⟨_, fs₁, rfl, .inl ⟨failure, rfl, he, ?_⟩⟩
        dsimp only
        rw [if_neg he]
        rfl
    · exact ⟨_, fs₁, rfl, .inr ⟨.inl rfl, hthen fs₁⟩⟩
  · exact .inl rfl

/-- Making a directory with the ones above it adds directories on the way to it and changes
nothing else. -/
theorem makeAll_adds (path : String) (fs : FileSystem) :
    fs.AddsDirectories ((makeAll path).on fs).2 (AlongPath ((makeAll path).on fs).2 path) := by
  unfold makeAll
  induction path.length generalizing path fs with
  | zero => exact makeOrReuse_adds path fs
  | succ fuel ih =>
    rcases makeAllFrom_cases fuel path fs with hrun | ⟨ht, result, fs₁, hhead, hrest⟩
    · rw [hrun]
      exact makeOrReuse_adds path fs
    · have hup := (ih (headAndTail path).1 fs).mono fun _ hl => alongPath_head ht hl
      rw [hhead] at hup
      rcases hrest with ⟨failure, -, -, hrun⟩ | ⟨-, hrun⟩
      · rw [hrun]
        exact hup
      · rw [hrun]
        split
        · exact hup
        · have hstep := makeOrReuse_adds path fs₁
          exact (hup.mono fun _ hl => hl.of_grows hstep.grows).trans hstep

end Action

end SourceAtlas
