import SourceAtlas.Proofs.Files.Standing

/-!
# What is reached by names

A directory that was made with the ones above it need not be found by its path afterwards.  The path
may end in `.` behind a link that leads nowhere: the link counts as existing, and then the directory
behind the `.` does, too.  But the names of the path that mean something lead to an entry
(`Action.makeAll_reaches`), if only to the link.

Hence a directory in it is not made either, unless it is made in a directory that stands: nothing is
added on the way (`Action.makePath_of_reaches`).
-/

namespace SourceAtlas

open FileSystem

namespace FileSystem

variable {fs fs' : FileSystem} {path dir name : String} {place : Location} {names : List String}

/-- The names of a path that mean something lead to an entry; a link at the end counts as one. -/
def Reaches (fs : FileSystem) (path : String) : Prop :=
  ∃ place, fs.walk false linkBudget (origin path fs.workingDirectory)
    ((bareRoute path).filter fun name => decide (name ≠ ".")) = .ok (.entry place)

namespace Reaches

lemma of_grows (hg : fs.Grows fs') (h : fs.Reaches path) : fs'.Reaches path := by
  obtain ⟨place, hw⟩ := h
  refine ⟨place, ?_⟩
  rw [hg.workingDirectory]
  exact walk_entry_of_grows hg hw

lemma of_walk (h : fs.walk false linkBudget (origin path fs.workingDirectory) (bareRoute path) =
    .ok (.entry place)) : fs.Reaches path :=
  walk_filtered h

lemma of_arrivesAt (h : fs.ArrivesAt path place) : fs.Reaches path := by
  exact of_walk (walkText_eq_ok_iff.1 h).2

lemma of_leadsTo (h : fs.LeadsTo path place) : fs.Reaches path := by
  obtain ⟨there, hw⟩ := walk_unfollowed h.walk
  exact of_walk hw

lemma of_leadsToDirectory (h : fs.leadsToDirectory path = true) : fs.Reaches path := by
  rw [leadsToDirectory, decide_eq_true_eq, node?] at h
  cases hl : fs.locate true path with
  | error e =>
    rw [hl] at h
    cases h
  | ok location =>
    rw [hl] at h
    exact of_leadsTo (leadsTo_iff_locate.2 ⟨hl, h⟩)

end Reaches

/-! ## What exists is reached -/

lemma advance_ne_exists (fs : FileSystem) (followLast : Bool) (here : Location)
    (names : List String) :
    fs.advance followLast here names ≠ .stopped .exists := by
  fun_induction fs.advance followLast here names <;> simp_all

lemma walk_ne_exists (fs : FileSystem) (followLast : Bool) (budget : Nat) (here : Location)
    (names : List String) : fs.walk followLast budget here names ≠ .error .exists := by
  induction budget generalizing here names with
  | zero =>
    rw [walk]
    split
    · simp
    · rename_i ha
      intro he
      exact advance_ne_exists fs followLast here names (by rw [ha, Except.error.inj he])
    · simp
  | succ budget ih =>
    rw [walk]
    split
    · simp
    · rename_i ha
      intro he
      exact advance_ne_exists fs followLast here names (by rw [ha, Except.error.inj he])
    · exact ih _ _

/-- A directory that cannot be made because something exists there names an entry. -/
lemma arrivesAt_of_exists (h : fs.makeDirectory path = .error (.os .exists)) :
    ∃ place, fs.ArrivesAt path place := by
  have hwalk : fs.walkText false path (bareRoute path) ≠ .error (.os .exists) := by
    rw [walkText]
    split
    · rename_i e htext
      intro he
      rw [Except.error.inj he] at htext
      rcases checkText_eq_error htext with hfalse | ⟨hfalse, -⟩ | ⟨hfalse, -⟩
      · cases hfalse
      · cases hfalse
      · cases hfalse
    · split
      · simp
      · rename_i code hw
        intro he
        refine walk_ne_exists fs false linkBudget (origin path fs.workingDirectory)
          (bareRoute path) ?_
        rw [hw]
        simpa using he
  rw [makeDirectory] at h
  split at h
  · rename_i e hw
    exact absurd (hw.trans (by rw [Except.error.inj h])) hwalk
  · rename_i place hw
    exact ⟨place, hw⟩
  · cases h

end FileSystem

namespace Action

variable {fs fs' : FileSystem} {path dir name text : String}

/-! ## Making a directory with the ones above it -/

lemma makeAll_empty (fs : FileSystem) :
    (makeAll "").on fs = (.error (.file (.os .notFound)), fs) := by
  have hmade : fs.makeDirectory "" = .error (.os .notFound) := by
    rw [makeDirectory, walkText, checkText]
    rfl
  have hdir : fs.leadsToDirectory "" = false := by
    rw [leadsToDirectory, node?, locate, lookup, walkText, checkText]
    rfl
  show (makeOrReuse "").on fs = _
  rw [on_makeOrReuse, hmade]
  dsimp only
  rw [hdir]
  rfl

/-- A directory that was made, or that could not be made because something exists, is reached. -/
lemma makeOrReuse_reaches {result : Except Failure Unit}
    (h : (makeOrReuse path).on fs = (result, fs'))
    (hr : result = .ok () ∨ result = .error (.file (.os .exists))) : fs'.Reaches path := by
  rw [on_makeOrReuse] at h
  cases hmade : fs.makeDirectory path with
  | ok fs₁ =>
    rw [hmade] at h
    obtain ⟨-, rfl⟩ := Prod.mk.inj h
    obtain ⟨parent, name, hw, hv, rfl⟩ := makeDirectory_eq_ok hmade
    have hn : (fs.insert (parent ++ [name]) .directory).get? (parent ++ [name]) =
        some .directory := by
      rw [get?_insert hv, if_pos rfl]
    exact .of_arrivesAt (walkText_filled (insert_grows hv) hn (by simp) hw)
  | error e =>
    rw [hmade] at h
    cases e with
    | nullByte =>
      obtain ⟨rfl, -⟩ := Prod.mk.inj h
      simp at hr
    | os code =>
      dsimp only at h
      split at h
      · rename_i hd
        obtain ⟨-, rfl⟩ := Prod.mk.inj h
        exact .of_leadsToDirectory hd
      · obtain ⟨rfl, rfl⟩ := Prod.mk.inj h
        have hexists : code = .exists := by simpa using hr
        rw [hexists] at hmade
        obtain ⟨place, ha⟩ := arrivesAt_of_exists hmade
        exact .of_arrivesAt ha

/-- A final `.` adds no name that means something. -/
lemma reaches_of_head (ht : (headAndTail path).2 = ".") (h : fs.Reaches (headAndTail path).1) :
    fs.Reaches path := by
  obtain ⟨-, hbare, -⟩ := headAndTail_spec path (by rw [ht]; decide)
  obtain ⟨place, hw⟩ := h
  refine ⟨place, ?_⟩
  have hdot : ["."].filter (fun name => decide (name ≠ ".")) = [] := by decide
  rw [hbare, ht, List.filter_append, hdot, List.append_nil, origin, ← isAbsolute_head, ← origin, hw]

lemma makeAllFrom_reaches (fuel : Nat) {result : Except Failure Unit}
    (h : (makeAllFrom fuel path).on fs = (result, fs'))
    (hr : result = .ok () ∨ result = .error (.file (.os .exists))) : fs'.Reaches path := by
  induction fuel generalizing path fs' result with
  | zero => exact makeOrReuse_reaches h hr
  | succ fuel ih =>
    rcases makeAllFrom_cases fuel path fs with hrun | ⟨ht, result', fs₁, hhead, hrest⟩
    · exact makeOrReuse_reaches (hrun ▸ h) hr
    · rcases hrest with ⟨failure, -, hne, hrun⟩ | ⟨hr', hrun⟩
      · obtain ⟨rfl, -⟩ := Prod.mk.inj (hrun.symm.trans h)
        rcases hr with he | he
        · cases he
        · exact absurd (Except.error.inj he) hne
      · rw [hrun] at h
        split at h
        · rename_i hdot
          obtain ⟨-, rfl⟩ := Prod.mk.inj h
          exact reaches_of_head hdot (ih hhead hr')
        · exact makeOrReuse_reaches h hr

/-- A directory that was made with the ones above it is reached. -/
theorem makeAll_reaches (h : (makeAll path).on fs = (.ok (), fs')) : fs'.Reaches path :=
  makeAllFrom_reaches path.length h (.inl rfl)

/-! ## A directory in one that is reached -/

lemma makeOne_unchanged (reuse : Bool) (h : ∀ fs', fs.makeDirectory path ≠ .ok fs') :
    ((makeOne reuse path).on fs).2 = fs := by
  rcases makeOne_cases reuse path fs with ⟨place, -, -, hmade, -⟩ | ⟨-, -, hrun⟩ | ⟨failure, hrun⟩
  · exact absurd hmade (h _)
  · rw [hrun]
  · rw [hrun]

lemma makeOne_fresh_fails (h : ∀ fs', fs.makeDirectory path ≠ .ok fs') :
    ∃ failure, (makeOne false path).on fs = (.error failure, fs) := by
  rcases makeOne_cases false path fs with ⟨place, -, -, hmade, -⟩ | ⟨hfalse, -⟩ | hfails
  · exact absurd hmade (h _)
  · cases hfalse
  · exact hfails

/-- What stands at the start of a path is not made. -/
lemma makeDirectory_start (slashes : Nat) (fs fs' : FileSystem) :
    fs.makeDirectory (PurePath.toString ⟨slashes, []⟩) ≠ .ok fs' := by
  intro hmade
  have hbare : ∀ name ∈ bareRoute (PurePath.toString ⟨slashes, []⟩), name = "." := by
    cases slashes with
    | zero => decide
    | succ count =>
      have htext : (PurePath.toString ⟨count + 1, []⟩).toList =
          [] ++ List.replicate (count + 1) '/' := by
        simp [PurePath.toString, Path.ofSegments, Text.join, Text.joinWith]
      rw [bareRoute_eq, htext, namesIn_slashes, namesIn_nil]
      simp
  obtain ⟨parent, name, hw, -, -⟩ := makeDirectory_eq_ok hmade
  obtain ⟨hopen, hlast⟩ := walk_vacant (walkText_eq_ok_iff.1 hw).2
  exact hopen.descends.ne_dot (hbare name (List.mem_of_getLast? (hlast rfl)))

/-- A directory is made under a name. -/
lemma names_ne_nil_of_makePath {path : PurePath} (h : (makePath false path).on fs = (.ok (), fs')) :
    path.names ≠ [] := by
  intro hnil
  rw [makePath, hnil] at h
  obtain ⟨failure, hfails⟩ := makeOne_fresh_fails fun fs' => makeDirectory_start path.slashes fs fs'
  rw [List.reverse_nil, makeUpwards, hfails] at h
  cases h

/-- What is there is not made, and neither is it missing. -/
lemma makeDirectory_of_walk {place : Location} (hne : path ≠ "")
    (hw : fs.walk false linkBudget (origin path fs.workingDirectory) (bareRoute path) =
      .ok (.entry place)) :
    ∃ e, fs.makeDirectory path = .error e ∧ e ≠ .os .notFound := by
  rw [makeDirectory, walkText, hw]
  cases hc : checkText path with
  | error e =>
    refine ⟨e, rfl, ?_⟩
    rintro rfl
    exact checkText_ne_notFound hne hc
  | ok => exact ⟨.os .exists, rfl, by simp⟩

/-- What is reached is not made anew. -/
lemma makePath_of_reached (hr : fs.Reaches path) :
    ∃ failure, (makePath false (PurePath.ofString path)).on fs = (.error failure, fs) := by
  by_cases hne : (PurePath.ofString path).names = []
  · have hrun : (makePath false (PurePath.ofString path)).on fs =
        (makeOne false (PurePath.toString ⟨(PurePath.ofString path).slashes, []⟩)).on fs := by
      rw [makePath, hne, List.reverse_nil, makeUpwards]
    rw [hrun]
    exact makeOne_fresh_fails (makeDirectory_start _ fs)
  · have hbare : bareRoute (PurePath.ofString path).toString =
        (bareRoute path).filter fun name => decide (name ≠ ".") := by
      rw [PurePath.bareRoute_toString hne fun _ => PurePath.names_ofString,
        PurePath.names_eq_filter]
    have hempty : (PurePath.ofString path).toString ≠ "" := by
      intro he
      rw [he, ← PurePath.names_eq_filter] at hbare
      exact hne hbare.symm
    obtain ⟨place, hw⟩ := hr
    rw [origin, ← PurePath.isAbsolute_ofString hne, ← origin, ← hbare] at hw
    obtain ⟨e, hmake, hfound⟩ := makeDirectory_of_walk hempty hw
    rw [on_makePath false (by simpa [hmake] using hfound)]
    exact makeOne_fresh_fails fun fs' => by simp [hmake]

/-- What is reached by names is not made by them, nor is anything above it. -/
lemma makeUpwards_unchanged {slashes : Nat} {names : List String} {place : Location}
    (hp : ∀ name ∈ names, name ≠ "" ∧ '/' ∉ name.toList)
    (hw : fs.walk false linkBudget (if slashes = 0 then fs.workingDirectory else []) names =
      .ok (.entry place)) :
    ((makeUpwards slashes true names.reverse).on fs).2 = fs := by
  rcases List.eq_nil_or_concat names with rfl | ⟨front, last, rfl⟩
  · exact makeOne_unchanged true (makeDirectory_start slashes fs)
  · rw [List.concat_eq_append] at hp hw ⊢
    have hne : front ++ [last] ≠ [] := by simp
    have hbare := @PurePath.bareRoute_toString slashes _ hne hp
    have horigin : origin (PurePath.toString ⟨slashes, front ++ [last]⟩) fs.workingDirectory =
        if slashes = 0 then fs.workingDirectory else [] := by
      rw [origin, PurePath.isAbsolute_toString hne hp]
      by_cases hs : slashes = 0 <;> simp [hs]
    have hempty : PurePath.toString ⟨slashes, front ++ [last]⟩ ≠ "" := by
      intro he
      rw [he] at hbare
      exact hne hbare.symm
    obtain ⟨e, hmake, hfound⟩ := makeDirectory_of_walk hempty (by rw [horigin, hbare]; exact hw)
    have hreverse : (front ++ [last]).reverse = last :: front.reverse := by simp
    have hback : (last :: front.reverse).reverse = front ++ [last] := by simp
    rw [hreverse]
    rcases on_makeUpwards_cons slashes true last front.reverse fs with ⟨hrun, -⟩ | ⟨-, hmissing⟩
    · rw [hrun, hback]
      exact makeOne_unchanged true fun fs' => by simp [hmake]
    · rw [hback, hmake] at hmissing
      exact absurd (Except.error.inj hmissing) hfound

/-- In what is reached, a directory is made in one step or not at all. -/
theorem makePath_of_reaches (hr : fs.Reaches dir) (ht : NamedText dir name text)
    (hn : PlainName name)
    (hnot : ∀ fs', fs.makeDirectory (PurePath.ofString text).toString ≠ .ok fs') :
    ∃ failure, (makePath false (PurePath.ofString text)).on fs = (.error failure, fs) := by
  obtain ⟨place, hw⟩ := hr
  have hnames := ht.names_pure hn
  have hstart : origin dir fs.workingDirectory =
      if (PurePath.ofString text).slashes = 0 then fs.workingDirectory else [] := by
    rw [origin]
    by_cases hs : (PurePath.ofString text).slashes = 0
    · rw [if_pos hs, if_neg (by simp [ht.slashes_pure.1 hs])]
    · rw [if_neg hs, if_pos (by simpa using fun hf => hs (ht.slashes_pure.2 hf))]
  have hproper : ∀ other ∈ (bareRoute dir).filter (fun name => decide (name ≠ ".")),
      other ≠ "" ∧ '/' ∉ other.toList := by
    intro other ho
    have hmem : other ∈ (PurePath.ofString text).names := by
      rw [hnames]
      exact List.mem_append_left _ ho
    exact PurePath.names_ofString hmem
  rw [hstart] at hw
  have habove := makeUpwards_unchanged hproper hw
  rw [makePath, hnames, List.reverse_append, List.reverse_singleton, List.singleton_append]
  have htext : PurePath.toString ⟨(PurePath.ofString text).slashes,
      (name :: ((bareRoute dir).filter fun name => decide (name ≠ ".")).reverse).reverse⟩ =
        (PurePath.ofString text).toString := by
    rw [List.reverse_cons, List.reverse_reverse, ← hnames]
  rcases on_makeUpwards_cons (PurePath.ofString text).slashes false name
    ((bareRoute dir).filter fun name => decide (name ≠ ".")).reverse fs with ⟨hrun, -⟩ | ⟨hrun, -⟩
  · rw [hrun, htext]
    exact makeOne_fresh_fails hnot
  · rw [hrun, htext, on_bind]
    generalize (makeUpwards _ true _).on fs = outcome at habove
    obtain ⟨failure | ⟨⟩, fs'⟩ := outcome
    · exact ⟨failure, by rw [← habove]⟩
    · obtain rfl : fs' = fs := habove
      exact makeOne_fresh_fails hnot

end Action

end SourceAtlas
