import SourceAtlas.Cleanup.Directory
import SourceAtlas.Proofs.Files.Exactness
import SourceAtlas.Proofs.Project.Scan

/-!
# What the sweep of a directory leaves

However a sweep ends, it has changed nothing but the directory: entries of it are gone, and what was
below those that are directories themselves (`shrinks_sweepDirectory`).

The names in the directory are listed once, and while they are gone through the files change.  A
removal takes away one entry, so it changes neither what the other entries are nor when they
were modified.  What is due at the start is due when its turn comes, and the sweep ends with the
files without the entries that were due (`FileSystem.Sweepable.sweep`).  A second sweep then
finds nothing due.

Three things can get in the way.  The age of a link is not its own, so there must be no links in the
directory.  The path of an entry can be too long to be looked up, though that of the directory is
not; then every sweep fails (`sweepDirectory_tooLong`).  And the path of the directory is followed
anew for each entry, and can lead through one that is due.  Once that entry is gone, the ones after
it are taken to be missing.  So the path has to be good until the last entry that is due has been
removed (`FileSystem.Outlasts`), or some of them stay (`sweepDirectory_astray`).
-/

namespace SourceAtlas

open FileSystem SourceAtlas.Action

variable {fs fs' fs'' base : FileSystem} {directory name : String} {place : Location}
  {names : List String} {lifetime now : Binary64}

namespace FileSystem

/-! ## Losses in a directory -/

/-- Nothing has changed but in a directory, where entries of certain names are gone, and
what was below those that are directories themselves.  Of a link nothing but the link can be
gone (`spans_link`). -/
structure Shrinks (fs fs' : FileSystem) (place : Location) (names : List String) : Prop where
  loses : fs.LosesOnly fs' fun location => ∃ name ∈ names, fs.Spans (place ++ [name]) location
  modified : ∀ location, ¬ place <+: location → fs'.modified location = fs.modified location

namespace Shrinks

lemma refl (fs : FileSystem) (place : Location) (names : List String) : fs.Shrinks fs place names :=
  ⟨.refl fs _, fun _ _ => rfl⟩

lemma mono {others : List String} (h : fs.Shrinks fs' place names) (hsub : names ⊆ others) :
    fs.Shrinks fs' place others :=
  ⟨h.loses.mono fun _ ⟨name, hm, hspans⟩ => ⟨name, hsub hm, hspans⟩, h.modified⟩

lemma trans (h : fs.Shrinks fs' place names) (h' : fs'.Shrinks fs'' place names) :
    fs.Shrinks fs'' place names := by
  refine ⟨h.loses.trans (h'.loses.mono fun location ⟨name, hm, hspans⟩ => ?_),
    fun location hp => ?_⟩
  · exact ⟨name, hm, hspans.of_grows h.loses.grows⟩
  · rw [h'.modified location hp, h.modified location hp]

/-- An entry is gone, or what was below it. -/
lemma of_entry (hl : fs.LosesOnly fs' (place ++ [name] <+: ·))
    (ht : ∀ location, ¬ place <+: location → fs'.modified location = fs.modified location) :
    fs.Shrinks fs' place [name] := by
  refine ⟨hl.of_present fun location node hn hp => ?_, ht⟩
  have hspanned := spans_of_prefix hp hn
  exact ⟨name, List.mem_singleton_self name, hspanned⟩

end Shrinks

/-- An entry that is removed by its path, if it is found at all. -/
lemma shrinks_removePath (h : base.LeadsTo directory place) (hm : name ∈ base.names place)
    (hg : fs.Grows base) :
    fs.Shrinks ((removePath (some (Path.append directory name))).on fs).2 place [name] := by
  obtain ⟨node, hnode⟩ := mem_names_iff.1 hm
  have hn : PlainName name := (parent_of_get? hnode).2.plain
  have ht := entryText_append h.ne_empty hn
  have hb : PlainName (Path.base (Path.append directory name)) := by rwa [ht.base]
  cases hl : fs.locate false (Path.append directory name) with
  | error e =>
    rw [removePath_of_error hb hl]
    exact .refl fs place _
  | ok found =>
    -- What is found was found at the start, and that was the entry of the name.
    have hbefore := locate_of_grows hg hl
    have hc := (walkText_eq_ok_iff.1 (lookup_of_locate hbefore)).1
    obtain rfl : place ++ [name] = found :=
      Except.ok.inj ((h.locate_entry ht hn hc hnode (.inl rfl)).symm.trans hbefore)
    have hne : place ++ [name] ≠ [] := by simp
    have haway {location : Location} (hp : ¬ place <+: location) : ¬ place ++ [name] <+: location :=
      fun hc => hp ((List.prefix_append ..).trans hc)
    have herased : fs.Shrinks (fs.eraseTree (place ++ [name])) place [name] :=
      .of_entry (losesOnly_eraseTree fs hne) fun location hp =>
        modified_eraseTree (haway hp) fun he => hp (by simp [he])
    have hemptied : fs.Shrinks (fs.eraseBelow (place ++ [name])) place [name] :=
      .of_entry (losesOnly_eraseBelow fs _) fun location hp => modified_eraseBelow (haway hp)
    by_cases hd : fs.isDirectory (place ++ [name])
    · rw [removePath_of_directory hb hl hd]
      split
      · exact herased
      · exact hemptied
    · rw [removePath_of_not_directory hb hl hd]
      exact herased

end FileSystem

/-- A look at a time changes nothing. -/
lemma on_modificationTime (path : String) (fs : FileSystem) :
    ∃ result, (modificationTime path).on fs = (result, fs) := by
  rw [modificationTime, on_bind_ok on_get]
  split
  · exact ⟨_, rfl⟩
  · exact ⟨_, rfl⟩
  · exact ⟨_, rfl⟩

/-- One step of a sweep removes at most the entry that it is about. -/
lemma shrinks_sweepEntry (h : base.LeadsTo directory place) (hm : name ∈ base.names place)
    (hg : fs.Grows base) :
    fs.Shrinks ((sweepEntry lifetime now (Path.append directory name)).on fs).2 place [name] := by
  obtain ⟨result, htime⟩ := on_modificationTime (Path.append directory name) fs
  rw [sweepEntry, on_bind, htime]
  rcases result with failure | _ | time
  · exact .refl fs place _
  · exact .refl fs place _
  · dsimp only
    split
    · have hremoved := shrinks_removePath h hm hg
      rw [on_bind]
      generalize (removePath (some (Path.append directory name))).on fs = outcome at hremoved
      obtain ⟨failure | removed, fs'⟩ := outcome
      · exact hremoved
      · exact hremoved
    · exact .refl fs place _

/-- The files at the end of a sweep are those at the end of the rest of it. -/
lemma snd_sweepEntries_cons {path : String} {removed : Nat} {fs₁ : FileSystem}
    (h : (sweepEntry lifetime now path).on fs = (.ok removed, fs₁)) (paths : List String) :
    ((sweepEntries lifetime now (path :: paths)).on fs).2 =
      ((sweepEntries lifetime now paths).on fs₁).2 := by
  rw [sweepEntries, on_bind_ok h, on_bind]
  rcases (sweepEntries lifetime now paths).on fs₁ with ⟨failure | count, fs₂⟩ <;> rfl

/-- A step that fails is the last one. -/
lemma snd_sweepEntries_of_error {path : String} {failure : Failure} {fs₁ : FileSystem}
    (h : (sweepEntry lifetime now path).on fs = (.error failure, fs₁)) (paths : List String) :
    ((sweepEntries lifetime now (path :: paths)).on fs).2 = fs₁ := by
  rw [sweepEntries, on_bind_error h]

lemma shrinks_sweepEntries (h : base.LeadsTo directory place)
    (hm : ∀ name ∈ names, name ∈ base.names place) (hg : fs.Grows base) :
    fs.Shrinks ((sweepEntries lifetime now (names.map (Path.append directory))).on fs).2 place
      names := by
  induction names generalizing fs with
  | nil => exact .refl fs place _
  | cons name names ih =>
    have hfirst : fs.Shrinks ((sweepEntry lifetime now (Path.append directory name)).on fs).2 place
        (name :: names) :=
      (shrinks_sweepEntry h (hm name (List.mem_cons_self ..)) hg).mono (by simp)
    rw [List.map_cons]
    rcases hstep : (sweepEntry lifetime now (Path.append directory name)).on fs with
      ⟨failure | removed, fs₁⟩
    · rw [hstep] at hfirst
      rw [snd_sweepEntries_of_error hstep]
      exact hfirst
    · rw [hstep] at hfirst
      rw [snd_sweepEntries_cons hstep]
      have hrest := ih (fun other ho => hm other (List.mem_cons_of_mem _ ho))
        (hfirst.loses.grows.trans hg)
      exact hfirst.trans (hrest.mono (List.subset_cons_self name names))

/-- A sweep goes through the names of the directory that its path leads to. -/
lemma on_sweepDirectory (h : fs.LeadsTo directory place) (lifetime now : Binary64) :
    (sweepDirectory directory lifetime now).on fs =
      (sweepEntries lifetime now ((sortTexts (fs.names place)).map (Path.append directory))).on
        fs := by
  obtain ⟨hl, hd⟩ := leadsTo_iff_locate.1 h
  rw [sweepDirectory, on_bind_ok on_get, hl]
  dsimp only
  rw [if_pos hd]

/-- Where there is no directory, there is nothing to sweep. -/
lemma sweepDirectory_nowhere (h : ∀ place, ¬ fs.LeadsTo directory place) (lifetime now : Binary64) :
    (sweepDirectory directory lifetime now).on fs = (.ok 0, fs) := by
  rw [sweepDirectory, on_bind_ok on_get]
  cases hl : fs.locate true directory with
  | error e => rfl
  | ok place =>
    dsimp only
    rw [if_neg fun hd => h place (leadsTo_iff_locate.2 ⟨hl, hd⟩)]
    rfl

/-- However a sweep ends, it has taken away entries of the directory and nothing else. -/
lemma shrinks_sweepDirectory (h : fs.LeadsTo directory place) (lifetime now : Binary64) :
    fs.Shrinks ((sweepDirectory directory lifetime now).on fs).2 place (fs.names place) := by
  rw [on_sweepDirectory h]
  exact (shrinks_sweepEntries h (fun name hm => mem_sortTexts.1 hm) (.refl fs)).mono fun _ hm =>
    mem_sortTexts.1 hm

/-! ## Paths that are refused -/

/-- A path that cannot be looked up ends a sweep at the latest when its turn comes. -/
lemma sweepEntries_of_checkText {path : String} {paths : List String} {e : FileError}
    (hm : path ∈ paths) (hc : checkText path = .error e) (he : e ≠ .os .notFound)
    (fs : FileSystem) :
    ∃ failure fs', (sweepEntries lifetime now paths).on fs = (.error failure, fs') := by
  induction paths generalizing fs with
  | nil => cases hm
  | cons first paths ih =>
    rw [sweepEntries, on_bind]
    rcases List.mem_cons.1 hm with rfl | hm
    · have htime : (modificationTime path).on fs = (.error (.file e), fs) := by
        rw [modificationTime, on_bind_ok on_get, locate_of_checkText true hc]
        split
        · next h => cases h
        · next h => exact absurd (Except.error.inj h) he
        · next h => rw [Except.error.inj h, on_throw]
      rw [sweepEntry, on_bind_error htime]
      exact ⟨_, _, rfl⟩
    · rcases (sweepEntry lifetime now first).on fs with ⟨failure | removed, fs₁⟩
      · exact ⟨_, _, rfl⟩
      · obtain ⟨failure, fs₂, hrest⟩ := ih hm fs₁
        dsimp only
        rw [on_bind_error hrest]
        exact ⟨_, _, rfl⟩

/-- No sweep of a directory ends well if the path of one of its entries is too long. -/
theorem sweepDirectory_tooLong (h : fs.LeadsTo directory place) (hm : name ∈ fs.names place)
    (hs : maxPathBytes < (Path.append directory name).utf8ByteSize) (lifetime now : Binary64) :
    ∃ failure fs', (sweepDirectory directory lifetime now).on fs = (.error failure, fs') := by
  obtain ⟨node, hnode⟩ := mem_names_iff.1 hm
  have hvalid := (parent_of_get? hnode).2
  have hc : checkText (Path.append directory name) = .error (.os .nameTooLong) := by
    rw [checkText_named (entryText_append h.ne_empty hvalid.plain).toNamedText h.text hvalid,
      if_pos hs]
  rw [on_sweepDirectory h]
  exact sweepEntries_of_checkText (List.mem_map_of_mem (mem_sortTexts.2 hm)) hc (by simp) fs

namespace FileSystem

/-! ## Files without some entries -/

/-- Entries of different names have nothing in common. -/
lemma not_above_entry {other : String} (hne : other ≠ name) :
    ¬ place ++ [other] <+: place ++ [name] := by
  intro hp
  have he := hp.eq_of_length (by simp)
  exact hne (List.append_singleton_inj.1 he).2

/-- The files without the entries of a directory that have certain names. -/
def eraseEntries (fs : FileSystem) (place : Location) (names : List String) : FileSystem :=
  names.foldl (fun fs name => fs.eraseTree (place ++ [name])) fs

lemma losesOnly_eraseEntries (fs : FileSystem) (place : Location) (names : List String) :
    fs.LosesOnly (fs.eraseEntries place names) fun location =>
      ∃ name ∈ names, place ++ [name] <+: location := by
  induction names generalizing fs with
  | nil => exact .refl fs _
  | cons name names ih =>
    have hne : place ++ [name] ≠ [] := by simp
    refine .trans ((losesOnly_eraseTree fs hne).mono fun location hp => ?_)
      ((ih _).mono fun location ⟨other, ho, hp⟩ => ?_)
    · exact ⟨name, List.mem_cons_self .., hp⟩
    · exact ⟨other, List.mem_cons_of_mem _ ho, hp⟩

/-- What is left out is gone. -/
lemma get?_eraseEntries_of_mem {location : Location} (hn : name ∈ names)
    (hp : place ++ [name] <+: location) :
    (fs.eraseEntries place names).get? location = none := by
  induction names generalizing fs with
  | nil => cases hn
  | cons first names ih =>
    rcases List.mem_cons.1 hn with rfl | hn
    · have hne : place ++ [name] ≠ [] := by simp
      have hgone := get?_eq_none_of_above (cleared_eraseTree fs hne).gone hp
      rcases (losesOnly_eraseEntries (fs.eraseTree (place ++ [name])) place names).kept_or_lost
        location with hsame | ⟨hnone, -⟩
      · exact hsame.trans hgone
      · exact hnone
    · exact ih hn

lemma get?_eraseEntries_of_not {location : Location}
    (h : ∀ name ∈ names, ¬ place ++ [name] <+: location) :
    (fs.eraseEntries place names).get? location = fs.get? location := by
  rcases (losesOnly_eraseEntries fs place names).kept_or_lost location with
    hsame | ⟨-, name, hn, hp⟩
  · exact hsame
  · exact absurd hp (h name hn)

/-- What is left keeps its time, the directory itself apart. -/
lemma modified_eraseEntries {location : Location}
    (h : ∀ name ∈ names, ¬ place ++ [name] <+: location) (hne : location ≠ place) :
    (fs.eraseEntries place names).modified location = fs.modified location := by
  induction names generalizing fs with
  | nil => rfl
  | cons first names ih =>
    have hfirst : (fs.eraseTree (place ++ [first])).modified location = fs.modified location :=
      modified_eraseTree (h first (List.mem_cons_self ..)) (by simpa using hne)
    rw [← hfirst]
    exact ih fun name hn => h name (List.mem_cons_of_mem _ hn)

/-! ## What is due -/

/-- Whether an entry of a directory was last modified at least a lifetime ago. -/
def due (fs : FileSystem) (place : Location) (lifetime now : Binary64) (name : String) : Bool :=
  lifetime.le (now - fs.modified (place ++ [name]))

/-- The removal of an entry does not change whether another one is due. -/
lemma due_eraseTree {other : String} (hne : name ≠ other) (lifetime now : Binary64) :
    (fs.eraseTree (place ++ [name])).due place lifetime now other =
      fs.due place lifetime now other := by
  rw [due, modified_eraseTree (not_above_entry hne) (by simp), due]

/-- The path of a directory is good for the removal of its entries of certain names, one after the
other: whenever it is the turn of one of them, and this one has been emptied, the path still leads
to the directory. -/
def Outlasts (fs : FileSystem) (directory : String) (place : Location) : List String → Prop
  | [] => True
  | name :: names => (fs.eraseBelow (place ++ [name])).LeadsTo directory place ∧
      (fs.eraseTree (place ++ [name])).Outlasts directory place names

/-- A path that leads to the directory without the entries has been good all along. -/
lemma Outlasts.of_leadsTo (h : (fs.eraseEntries place names).LeadsTo directory place) :
    fs.Outlasts directory place names := by
  induction names generalizing fs with
  | nil => trivial
  | cons name names ih =>
    have hne : place ++ [name] ≠ [] := by simp
    have hgone := (losesOnly_eraseTree (fs.eraseBelow (place ++ [name])) hne).grows
    have hrest := (losesOnly_eraseEntries (fs.eraseTree (place ++ [name])) place names).grows
    rw [eraseTree_eraseBelow] at hgone
    exact ⟨h.grows (hrest.trans hgone), ih h⟩

/-- The rest of a sweep, with the names that are still to be gone through.  The directory was found
at the start, and since then things have been lost at most. -/
structure Pending (base fs : FileSystem) (directory : String) (place : Location)
    (names : List String) : Prop where
  leads : base.LeadsTo directory place
  loses : base.LosesOnly fs fun _ => True
  distinct : names.Nodup
  text : ∀ name ∈ names, checkText (Path.append directory name) = .ok ()
  entry : ∀ name ∈ names, ∃ node, fs.get? (place ++ [name]) = some node ∧
    ∀ target, node ≠ .link target

namespace Pending

lemma entryText (h : base.Pending fs directory place (name :: names)) :
    EntryText directory name (Path.append directory name) ∧ PlainName name := by
  obtain ⟨node, hnode, -⟩ := h.entry name (List.mem_cons_self ..)
  have hn := (parent_of_get? hnode).2.plain
  exact ⟨entryText_append h.leads.ne_empty hn, hn⟩

lemma plainName (h : base.Pending fs directory place (name :: names)) :
    PlainName (Path.base (Path.append directory name)) := by
  obtain ⟨ht, hn⟩ := h.entryText
  rwa [ht.base]

/-- The path of an entry leads to the entry, as it did at the start, or to nothing. -/
lemma locate_cases (h : base.Pending fs directory place (name :: names)) (followLast : Bool) :
    fs.locate followLast (Path.append directory name) = .ok (place ++ [name]) ∨
      fs.locate followLast (Path.append directory name) = .error (.os .notFound) := by
  obtain ⟨node, hnode, hlink⟩ := h.entry name (List.mem_cons_self ..)
  obtain ⟨ht, hn⟩ := h.entryText
  have hbase : base.get? (place ++ [name]) = some node := by
    rcases h.loses.kept_or_lost (place ++ [name]) with hsame | ⟨hgone, -⟩
    · rw [← hsame, hnode]
    · rw [hgone] at hnode
      cases hnode
  exact locate_of_losesOnly h.loses
    (h.leads.locate_entry ht hn (h.text name (List.mem_cons_self ..)) hbase (.inr hlink))

/-- Where the path of an entry leads to the entry, that of the directory leads to the directory. -/
lemma leadsTo_of_locate (h : base.Pending fs directory place (name :: names)) (hg : fs'.Grows fs)
    (hl : fs'.locate false (Path.append directory name) = .ok (place ++ [name])) :
    fs'.LeadsTo directory place := by
  obtain ⟨-, hne, hs⟩ := checkText_eq_ok_iff.1 h.leads.text
  obtain ⟨other, hother⟩ :=
    LeadsTo.of_arrival hne hs h.entryText.1.toNamedText (walkText_of_base h.plainName hl)
  rwa [h.leads.unique (hother.grows (hg.trans h.loses.grows))]

/-- The time that is asked for is that of the entry, unless the entry is not found. -/
lemma time_or_none (h : base.Pending fs directory place (name :: names)) :
    (modificationTime (Path.append directory name)).on fs =
      (.ok (some (fs.modified (place ++ [name]))), fs) ∨
      (modificationTime (Path.append directory name)).on fs = (.ok none, fs) := by
  rw [modificationTime, on_bind_ok on_get]
  rcases h.locate_cases true with hfound | hmissing
  · rw [hfound]
    exact .inl rfl
  · rw [hmissing]
    exact .inr rfl

/-- What comes next, if nothing happens to the first entry. -/
lemma passed (h : base.Pending fs directory place (name :: names)) :
    base.Pending fs directory place names where
  leads := h.leads
  loses := h.loses
  distinct := (List.nodup_cons.1 h.distinct).2
  text other ho := h.text other (List.mem_cons_of_mem _ ho)
  entry other ho := h.entry other (List.mem_cons_of_mem _ ho)

/-- What comes next, if the first entry is removed. -/
lemma removed (h : base.Pending fs directory place (name :: names)) :
    base.Pending (fs.eraseTree (place ++ [name])) directory place names where
  leads := h.leads
  loses := by
    have hne : place ++ [name] ≠ [] := by simp
    exact h.loses.trans ((losesOnly_eraseTree fs hne).mono fun _ _ => trivial)
  distinct := (List.nodup_cons.1 h.distinct).2
  text other ho := h.text other (List.mem_cons_of_mem _ ho)
  entry other ho := by
    have hne : name ≠ other := fun he => (List.nodup_cons.1 h.distinct).1 (he ▸ ho)
    rw [get?_eraseTree (by simp), if_neg (not_above_entry hne)]
    exact h.entry other (List.mem_cons_of_mem _ ho)

/-- When an entry is gone, the same of the others are due. -/
lemma filter_due (h : base.Pending fs directory place (name :: names)) (lifetime now : Binary64) :
    names.filter ((fs.eraseTree (place ++ [name])).due place lifetime now) =
      names.filter (fs.due place lifetime now) := by
  refine List.filter_congr fun other ho => due_eraseTree ?_ lifetime now
  exact fun he => (List.nodup_cons.1 h.distinct).1 (he ▸ ho)

/-- What is not due is passed over. -/
lemma step_of_not_due (h : base.Pending fs directory place (name :: names))
    (hdue : ¬ fs.due place lifetime now name = true) :
    (sweepEntry lifetime now (Path.append directory name)).on fs = (.ok 0, fs) := by
  rw [sweepEntry]
  rcases h.time_or_none with htime | hnone
  · rw [on_bind_ok htime]
    dsimp only
    rw [← due, if_neg hdue]
    rfl
  · rw [on_bind_ok hnone]
    rfl

/-- What is due is removed, if the directory is still found when it has been emptied. -/
lemma step_of_due (h : base.Pending fs directory place (name :: names))
    (hdue : fs.due place lifetime now name = true)
    (hleads : (fs.eraseBelow (place ++ [name])).LeadsTo directory place) :
    (sweepEntry lifetime now (Path.append directory name)).on fs =
      (.ok 1, fs.eraseTree (place ++ [name])) := by
  obtain ⟨node, hnode, hlink⟩ := h.entry name (List.mem_cons_self ..)
  obtain ⟨ht, hn⟩ := h.entryText
  have hc := h.text name (List.mem_cons_self ..)
  have hgrows := (losesOnly_eraseBelow fs (place ++ [name])).grows
  have hkept : (fs.eraseBelow (place ++ [name])).get? (place ++ [name]) = some node := by
    rw [get?_eraseBelow (by simp), if_neg (by simp), hnode]
  have hemptied (followLast : Bool) : (fs.eraseBelow (place ++ [name])).locate followLast
      (Path.append directory name) = .ok (place ++ [name]) :=
    hleads.locate_entry ht hn hc hkept (.inr hlink)
  have htime : (modificationTime (Path.append directory name)).on fs =
      (.ok (some (fs.modified (place ++ [name]))), fs) := by
    rw [modificationTime, on_bind_ok on_get, locate_of_grows hgrows (hemptied true)]
    rfl
  have hl := locate_of_grows hgrows (hemptied false)
  have hremoved : (removePath (some (Path.append directory name))).on fs =
      (.ok true, fs.eraseTree (place ++ [name])) := by
    refine removePath_of_locate h.plainName hl fun found hfound => ?_
    obtain rfl : place ++ [name] = found := Except.ok.inj (hl.symm.trans hfound)
    exact hemptied false
  rw [sweepEntry, on_bind_ok htime]
  dsimp only
  rw [← due, if_pos hdue, on_bind_ok hremoved]
  rfl

/-- What is due is removed, entry by entry, and counted. -/
lemma run (h : base.Pending fs directory place names)
    (ho : fs.Outlasts directory place (names.filter (fs.due place lifetime now))) :
    (sweepEntries lifetime now (names.map (Path.append directory))).on fs =
      (.ok (names.filter (fs.due place lifetime now)).length,
        fs.eraseEntries place (names.filter (fs.due place lifetime now))) := by
  induction names generalizing fs with
  | nil => rfl
  | cons name names ih =>
    rw [List.map_cons, sweepEntries]
    by_cases hdue : fs.due place lifetime now name = true
    · rw [List.filter_cons_of_pos hdue] at ho ⊢
      have hrest := ih h.removed (by rw [h.filter_due]; exact ho.2)
      rw [h.filter_due] at hrest
      rw [on_bind_ok (h.step_of_due hdue ho.1), on_bind_ok hrest, List.length_cons, Nat.add_comm 1]
      rfl
    · rw [List.filter_cons_of_neg hdue] at ho ⊢
      rw [on_bind_ok (h.step_of_not_due hdue), on_bind_ok (ih h.passed ho), Nat.zero_add]
      rfl

/-! ### Losing the way -/

/-- If the directory is not found when an entry has been emptied, the entry stays. -/
lemma removePath_of_astray (h : base.Pending fs directory place (name :: names))
    (hleads : ¬ (fs.eraseBelow (place ++ [name])).LeadsTo directory place) :
    ((removePath (some (Path.append directory name))).on fs).2.get? (place ++ [name]) ≠ none := by
  obtain ⟨node, hnode, -⟩ := h.entry name (List.mem_cons_self ..)
  have hgrows := (losesOnly_eraseBelow fs (place ++ [name])).grows
  have hlost : (fs.eraseBelow (place ++ [name])).locate false (Path.append directory name) ≠
      .ok (place ++ [name]) := fun hl => hleads (h.leadsTo_of_locate hgrows hl)
  rcases h.locate_cases false with hl | hmissing
  · have hd : fs.isDirectory (place ++ [name]) := by
      by_contra hd
      exact hlost (locate_eraseBelow_of_not_directory hd hl)
    rw [removePath_of_directory h.plainName hl hd, if_neg hlost, get?_eraseBelow (by simp),
      if_neg (by simp), hnode]
    simp
  · rw [removePath_of_error h.plainName hmissing, hnode]
    simp

lemma step_of_astray (h : base.Pending fs directory place (name :: names))
    (hleads : ¬ (fs.eraseBelow (place ++ [name])).LeadsTo directory place)
    (lifetime now : Binary64) :
    ((sweepEntry lifetime now (Path.append directory name)).on fs).2.get? (place ++ [name]) ≠
      none := by
  obtain ⟨node, hnode, -⟩ := h.entry name (List.mem_cons_self ..)
  have hkept : fs.get? (place ++ [name]) ≠ none := by simp [hnode]
  rw [sweepEntry]
  rcases h.time_or_none with htime | hnone
  · rw [on_bind_ok htime]
    dsimp only
    split
    · have hremoved := h.removePath_of_astray hleads
      rw [on_bind]
      generalize (removePath (some (Path.append directory name))).on fs = outcome at hremoved
      obtain ⟨failure | removed, fs'⟩ := outcome
      · exact hremoved
      · exact hremoved
    · exact hkept
  · rw [on_bind_ok hnone]
    exact hkept

lemma mem_names (h : base.Pending fs directory place names) (hm : name ∈ names) :
    name ∈ base.names place := by
  obtain ⟨node, hnode, -⟩ := h.entry name hm
  exact h.loses.grows.mem_names (mem_names_iff.2 ⟨node, hnode⟩)

lemma shrinks_step (h : base.Pending fs directory place (name :: names)) (lifetime now : Binary64) :
    fs.Shrinks ((sweepEntry lifetime now (Path.append directory name)).on fs).2 place [name] :=
  shrinks_sweepEntry h.leads (h.mem_names (List.mem_cons_self ..)) h.loses.grows

/-- What is still there when its turn is over stays. -/
lemma stays (h : base.Pending fs directory place (name :: names)) (hg : fs'.Grows fs)
    (hthere : fs'.get? (place ++ [name]) ≠ none) (lifetime now : Binary64) :
    ((sweepEntries lifetime now (names.map (Path.append directory))).on fs').2.get?
      (place ++ [name]) ≠ none := by
  have hrest : fs'.Shrinks
      ((sweepEntries lifetime now (names.map (Path.append directory))).on fs').2 place names :=
    shrinks_sweepEntries h.leads (fun other ho => h.mem_names (List.mem_cons_of_mem _ ho))
      (hg.trans h.loses.grows)
  rcases hrest.loses.kept_or_lost (place ++ [name]) with hsame | ⟨-, other, ho, hspans⟩
  · rwa [hsame]
  · have hne : other ≠ name := fun he => (List.nodup_cons.1 h.distinct).1 (he ▸ ho)
    rcases hspans with he | ⟨-, hp⟩
    · exact absurd (List.append_singleton_inj.1 he).2 hne.symm
    · exact absurd hp (not_above_entry hne)

/-- If the path of the directory is not good for all that is due, some of it stays. -/
lemma run_astray (h : base.Pending fs directory place names)
    (hnot : ¬ fs.Outlasts directory place (names.filter (fs.due place lifetime now))) :
    ∃ name ∈ names, fs.due place lifetime now name = true ∧
      ((sweepEntries lifetime now (names.map (Path.append directory))).on fs).2.get?
        (place ++ [name]) ≠ none := by
  induction names generalizing fs with
  | nil => exact absurd trivial hnot
  | cons name names ih =>
    rw [List.map_cons]
    by_cases hdue : fs.due place lifetime now name = true
    · by_cases hleads : (fs.eraseBelow (place ++ [name])).LeadsTo directory place
      · -- The way is lost at a later entry.
        rw [List.filter_cons_of_pos hdue] at hnot
        have hlater : ¬ (fs.eraseTree (place ++ [name])).Outlasts directory place
            (names.filter ((fs.eraseTree (place ++ [name])).due place lifetime now)) := by
          rw [h.filter_due]
          exact fun ho => hnot ⟨hleads, ho⟩
        obtain ⟨other, ho, hdue', hstays⟩ := ih h.removed hlater
        have hne : name ≠ other := fun he => (List.nodup_cons.1 h.distinct).1 (he ▸ ho)
        rw [due_eraseTree hne] at hdue'
        refine ⟨other, List.mem_cons_of_mem _ ho, hdue', ?_⟩
        rwa [snd_sweepEntries_cons (h.step_of_due hdue hleads)]
      · -- It is lost at this one, which stays.
        refine ⟨name, List.mem_cons_self .., hdue, ?_⟩
        have hstays := h.step_of_astray hleads lifetime now
        have hloses : fs.Shrinks ((sweepEntry lifetime now (Path.append directory name)).on fs).2
            place [name] :=
          h.shrinks_step lifetime now
        rcases hstep : (sweepEntry lifetime now (Path.append directory name)).on fs with
          ⟨failure | removed, fs₁⟩
        · rw [hstep] at hstays
          rwa [snd_sweepEntries_of_error hstep]
        · rw [hstep] at hstays hloses
          rw [snd_sweepEntries_cons hstep]
          exact h.stays hloses.loses.grows hstays lifetime now
    · rw [List.filter_cons_of_neg hdue] at hnot
      obtain ⟨other, ho, hdue', hstays⟩ := ih h.passed hnot
      refine ⟨other, List.mem_cons_of_mem _ ho, hdue', ?_⟩
      rwa [snd_sweepEntries_cons (h.step_of_not_due hdue)]

end Pending

/-! ## The sweep of a directory -/

/-- The names in a directory under which something is due, in order. -/
def dueNames (fs : FileSystem) (place : Location) (lifetime now : Binary64) : List String :=
  (sortTexts (fs.names place)).filter (fs.due place lifetime now)

lemma mem_dueNames :
    name ∈ fs.dueNames place lifetime now ↔
      name ∈ fs.names place ∧ fs.due place lifetime now name = true := by
  rw [dueNames, List.mem_filter, mem_sortTexts]

lemma length_dueNames (fs : FileSystem) (place : Location) (lifetime now : Binary64) :
    (fs.dueNames place lifetime now).length =
      ((fs.names place).filter (fs.due place lifetime now)).length :=
  ((List.mergeSort_perm _ _).filter _).length_eq

/-- A directory without links among its entries, none of whose paths is too long. -/
structure Sweepable (fs : FileSystem) (directory : String) (place : Location) : Prop where
  leads : fs.LeadsTo directory place
  no_links : ∀ name ∈ fs.names place, ∀ target, fs.get? (place ++ [name]) ≠ some (.link target)
  size_le : ∀ name ∈ fs.names place, (Path.append directory name).utf8ByteSize ≤ maxPathBytes

namespace Sweepable

/-- At the start, all names are still to be gone through. -/
lemma pending (h : fs.Sweepable directory place) :
    fs.Pending fs directory place (sortTexts (fs.names place)) where
  leads := h.leads
  loses := .refl fs _
  distinct := (List.mergeSort_perm _ _).nodup_iff.2 (nodup_names fs place)
  text name hm := by
    obtain ⟨node, hnode⟩ := mem_names_iff.1 (mem_sortTexts.1 hm)
    have hvalid := (parent_of_get? hnode).2
    exact checkText_of_named (entryText_append h.leads.ne_empty hvalid.plain).toNamedText
      h.leads.text hvalid (h.size_le name (mem_sortTexts.1 hm))
  entry name hm := by
    obtain ⟨node, hnode⟩ := mem_names_iff.1 (mem_sortTexts.1 hm)
    exact ⟨node, hnode, fun target he => h.no_links name (mem_sortTexts.1 hm) target (he ▸ hnode)⟩

/-- A sweep ends with the files without the entries that were due. -/
theorem sweep (h : fs.Sweepable directory place)
    (ho : fs.Outlasts directory place (fs.dueNames place lifetime now)) :
    (sweepDirectory directory lifetime now).on fs =
      (.ok (fs.dueNames place lifetime now).length,
        fs.eraseEntries place (fs.dueNames place lifetime now)) := by
  rw [on_sweepDirectory h.leads]
  exact h.pending.run ho

end Sweepable

/-- What is left was there before, and it is not due. -/
lemma mem_names_eraseEntries (hm : name ∈ (fs.eraseEntries place names).names place) :
    name ∈ fs.names place ∧ name ∉ names := by
  refine ⟨(losesOnly_eraseEntries fs place names).grows.mem_names hm, fun hn => ?_⟩
  obtain ⟨node, hnode⟩ := mem_names_iff.1 hm
  rw [get?_eraseEntries_of_mem hn (List.prefix_refl _)] at hnode
  cases hnode

lemma dueNames_eraseEntries (fs : FileSystem) (place : Location) (lifetime now : Binary64) :
    (fs.eraseEntries place (fs.dueNames place lifetime now)).dueNames place lifetime now = [] := by
  rw [List.eq_nil_iff_forall_not_mem]
  intro name hm
  obtain ⟨hleft, hdue⟩ := mem_dueNames.1 hm
  obtain ⟨hbefore, hnot⟩ := mem_names_eraseEntries hleft
  have hsame : (fs.eraseEntries place (fs.dueNames place lifetime now)).modified (place ++ [name]) =
      fs.modified (place ++ [name]) :=
    modified_eraseEntries (fun other ho => not_above_entry fun he => hnot (he ▸ ho)) (by simp)
  rw [due, hsame] at hdue
  exact hnot (mem_dueNames.2 ⟨hbefore, hdue⟩)

/-- After a sweep, the directory can be swept again, or it is not found any more. -/
lemma Sweepable.sweep_again (h : fs.Sweepable directory place) (lifetime now : Binary64) :
    (sweepDirectory directory lifetime now).on
      (fs.eraseEntries place (fs.dueNames place lifetime now)) =
      (.ok 0, fs.eraseEntries place (fs.dueNames place lifetime now)) := by
  have hnone := dueNames_eraseEntries fs place lifetime now
  have hloses := losesOnly_eraseEntries fs place (fs.dueNames place lifetime now)
  generalize fs.eraseEntries place (fs.dueNames place lifetime now) = fs' at hnone hloses
  by_cases hleads : fs'.LeadsTo directory place
  · have hagain : fs'.Sweepable directory place := by
      refine ⟨hleads, fun name hm target hlink => ?_, fun name hm => ?_⟩
      · exact h.no_links name (hloses.grows.mem_names hm) target (hloses.grows.link hlink)
      · exact h.size_le name (hloses.grows.mem_names hm)
    have hrun : (sweepDirectory directory lifetime now).on fs' = _ :=
      hagain.sweep (by rw [hnone]; trivial)
    rw [hnone] at hrun
    exact hrun
  · refine sweepDirectory_nowhere (fun other hother => hleads ?_) lifetime now
    rwa [h.leads.unique (hother.grows hloses.grows)]

end FileSystem

/-- How a sweep ends that removes what is due, and nothing else. -/
structure SweepsExactly (fs : FileSystem) (directory : String) (place : Location)
    (lifetime now : Binary64) (outcome : Except Failure Nat × FileSystem) : Prop where
  counted : outcome.1 = .ok ((fs.names place).filter (fs.due place lifetime now)).length
  gone : ∀ name ∈ fs.names place, fs.due place lifetime now name = true →
    ∀ location, fs.Spans (place ++ [name]) location → outcome.2.get? location = none
  kept : ∀ location, (∀ name ∈ fs.names place, fs.due place lifetime now name = true →
    ¬ fs.Spans (place ++ [name]) location) → outcome.2.get? location = fs.get? location
  modified : ∀ location node, (∀ name ∈ fs.names place, fs.due place lifetime now name = true →
    ¬ fs.Spans (place ++ [name]) location) → location ≠ place → fs.get? location = some node →
      outcome.2.modified location = fs.modified location
  again : (sweepDirectory directory lifetime now).on outcome.2 = (.ok 0, outcome.2)

lemma FileSystem.Sweepable.exact (h : fs.Sweepable directory place)
    (ho : fs.Outlasts directory place (fs.dueNames place lifetime now)) :
    SweepsExactly fs directory place lifetime now
      ((sweepDirectory directory lifetime now).on fs) := by
  rw [h.sweep ho]
  -- What is there and not spanned by anything that is due does not lie below anything that is due.
  have hbelow {location : Location} {node : Node} (hnode : fs.get? location = some node)
      (hspans : ∀ name ∈ fs.names place, fs.due place lifetime now name = true →
        ¬ fs.Spans (place ++ [name]) location) :
      ∀ name ∈ fs.dueNames place lifetime now, ¬ place ++ [name] <+: location := by
    intro name hm hp
    obtain ⟨hthere, hdue⟩ := mem_dueNames.1 hm
    have hspanned := spans_of_prefix hp hnode
    exact hspans name hthere hdue hspanned
  constructor
  · rw [length_dueNames]
  · intro name hm hdue location hspans
    have hp : place ++ [name] <+: location := by
      rcases hspans with rfl | ⟨-, hp⟩
      · exact List.prefix_refl _
      · exact hp
    exact get?_eraseEntries_of_mem (mem_dueNames.2 ⟨hm, hdue⟩) hp
  · intro location hspans
    cases hnode : fs.get? location with
    | some node => rw [get?_eraseEntries_of_not (hbelow hnode hspans), hnode]
    | none =>
      rcases (losesOnly_eraseEntries fs place (fs.dueNames place lifetime now)).kept_or_lost
        location with hsame | ⟨hgone, -⟩
      · rw [hsame, hnode]
      · exact hgone
  · intro location node hspans hne hnode
    exact modified_eraseEntries (hbelow hnode hspans) hne
  · exact h.sweep_again lifetime now

/-- However it ends, a sweep takes away entries of the directory and nothing else.  If there is no
directory it does nothing.  If no entry is a link or has a path that is too long, it removes what is
due, as long as the path of the directory is good. -/
theorem sweepDirectory_exact (fs : FileSystem) (directory : String) (lifetime now : Binary64) :
    (∀ place, fs.LeadsTo directory place →
      fs.Shrinks ((sweepDirectory directory lifetime now).on fs).2 place (fs.names place)) ∧
    ((∀ place, ¬ fs.LeadsTo directory place) →
      (sweepDirectory directory lifetime now).on fs = (.ok 0, fs)) ∧
    ∀ place, fs.Sweepable directory place →
      fs.Outlasts directory place (fs.dueNames place lifetime now) →
      SweepsExactly fs directory place lifetime now
        ((sweepDirectory directory lifetime now).on fs) :=
  ⟨fun _ h => shrinks_sweepDirectory h lifetime now, fun h => sweepDirectory_nowhere h lifetime now,
    fun _ h ho => h.exact ho⟩

/-- A directory with a directory that holds a link, a pipe, and a file that is younger than
they are. -/
def agedFiles : FileSystem :=
  ((((((FileSystem.empty [] ⟨0⟩).insert ["f"] (.file .empty)).insert ["e"] .directory).insert
    ["e", "a"] .directory).insert ["e", "a", "l"] (.link "../../f")).insert ["e", "b"] .pipe).insert
      ["e", "c"] (.file .empty) |>.stamp ["e", "c"] (.ofInt 95)

lemma sortTexts_agedFiles : sortTexts (agedFiles.names ["e"]) = ["a", "b", "c"] := by
  have hnames : agedFiles.names ["e"] = ["a", "b", "c"] := by decide +kernel
  rw [hnames, sortTexts_of_pairwise (by decide +kernel)]

lemma dueNames_agedFiles : agedFiles.dueNames ["e"] (.ofInt 10) (.ofInt 100) = ["a", "b"] := by
  rw [dueNames, sortTexts_agedFiles]
  decide +kernel

lemma no_links_agedFiles {name target : String} (hm : name ∈ agedFiles.names ["e"]) :
    agedFiles.get? (["e"] ++ [name]) ≠ some (.link target) := by
  have hkinds : ∀ name ∈ agedFiles.names ["e"],
      agedFiles.get? (["e"] ++ [name]) ∈
        [some .directory, some .pipe, some (.file .empty)] := by decide +kernel
  intro hlink
  have hkind := hkinds name hm
  rw [hlink] at hkind
  simp at hkind

/-- The directory and the pipe are due. -/
theorem sweepDirectory_exact_aged :
    agedFiles.Sweepable "e" ["e"] ∧
      agedFiles.Outlasts "e" ["e"] (agedFiles.dueNames ["e"] (.ofInt 10) (.ofInt 100)) ∧
      agedFiles.dueNames ["e"] (.ofInt 10) (.ofInt 100) = ["a", "b"] ∧
      SweepsExactly agedFiles "e" ["e"] (.ofInt 10) (.ofInt 100)
        ((sweepDirectory "e" (.ofInt 10) (.ofInt 100)).on agedFiles) := by
  have hsweepable : agedFiles.Sweepable "e" ["e"] :=
    ⟨leadsTo_iff_locate.2 (by decide +kernel),
      fun _ hm _ => no_links_agedFiles hm, by decide +kernel⟩
  have houtlasts : agedFiles.Outlasts "e" ["e"]
      (agedFiles.dueNames ["e"] (.ofInt 10) (.ofInt 100)) := by
    rw [dueNames_agedFiles]
    exact .of_leadsTo (leadsTo_iff_locate.2 (by decide +kernel))
  exact ⟨hsweepable, houtlasts, dueNames_agedFiles,
    (sweepDirectory_exact agedFiles "e" _ _).2.2 ["e"] hsweepable houtlasts⟩

/-- If the path of the directory is not good until all that is due has been removed, some of
it stays. -/
theorem sweepDirectory_astray (h : fs.Sweepable directory place)
    (hnot : ¬ fs.Outlasts directory place (fs.dueNames place lifetime now)) :
    ∃ name ∈ fs.names place, fs.due place lifetime now name = true ∧
      ((sweepDirectory directory lifetime now).on fs).2.get? (place ++ [name]) ≠ none := by
  obtain ⟨name, hm, hdue, hstays⟩ := h.pending.run_astray hnot
  rw [on_sweepDirectory h.leads]
  exact ⟨name, mem_sortTexts.1 hm, hdue, hstays⟩

/-- Through the first of its entries a directory is found, until this entry is removed.  Not all
that is due is removed then. -/
theorem sweep_loses_its_way :
    agedFiles.LeadsTo "e/a/.." ["e"] ∧ ∃ name ∈ agedFiles.names ["e"],
      agedFiles.due ["e"] (.ofInt 10) (.ofInt 100) name = true ∧
        ((sweepDirectory "e/a/.." (.ofInt 10) (.ofInt 100)).on agedFiles).2.get? (["e"] ++ [name]) ≠
          none := by
  have hsweepable : agedFiles.Sweepable "e/a/.." ["e"] :=
    ⟨leadsTo_iff_locate.2 (by decide +kernel),
      fun _ hm _ => no_links_agedFiles hm, by decide +kernel⟩
  refine ⟨hsweepable.leads, sweepDirectory_astray hsweepable fun ho => ?_⟩
  rw [dueNames_agedFiles] at ho
  obtain ⟨-, hsecond, -⟩ := ho
  have hlost : ((agedFiles.eraseTree (["e"] ++ ["a"])).eraseBelow (["e"] ++ ["b"])).locate true
      "e/a/.." ≠ .ok ["e"] := by decide +kernel
  exact hlost (leadsTo_iff_locate.1 hsecond).1

end SourceAtlas
