import SourceAtlas.Files.Removal
import SourceAtlas.Proofs.Files.Changes
import SourceAtlas.Proofs.Files.InDirectory

/-!
# Removing an entry of a directory

What `Action.removePath` does to an entry that is asked for by path: a file is removed, a directory
is removed with everything below it (`removePath_file`, `removePath_directory`), and where nothing
stands nothing happens (`removePath_missing`).  Whatever is no directory is removed by any path that
ends in a name (`removePath_of_not_directory`).

A directory is emptied first, and its path is then followed once more.  The way to it must not lead
through what was removed; it does not if it was there before anything was put below the directories
in question, which is what the file system `base` stands for.
-/

namespace SourceAtlas

open FileSystem

variable {base fs fs' : FileSystem} {dir name text : String} {place : Location}
  {content : ByteArray}

namespace FileSystem

lemma lastName?_eq_some_iff : lastName? text = some name ↔
    (bareRoute text).getLast? = some name ∧ name ≠ "." ∧ name ≠ ".." := by
  rw [lastName?]
  cases (bareRoute text).getLast? with
  | none => simp
  | some last =>
    dsimp only
    split
    · rename_i hdots
      constructor
      · intro h
        cases h
      · rintro ⟨h, hdot, hup⟩
        obtain rfl := Option.some.inj h
        exact absurd hdots (by simp [hdot, hup])
    · rename_i hdots
      rw [not_or] at hdots
      constructor
      · intro h
        obtain rfl := Option.some.inj h
        exact ⟨rfl, hdots⟩
      · exact fun h => h.1

lemma route_eq_bareRoute (path : String) :
    route path =
      if hasTrailingSlash path = true then bareRoute path ++ ["."] else bareRoute path := by
  by_cases hslash : hasTrailingSlash path = true
  · rw [if_pos hslash]
    exact if_pos (of_decide_eq_true hslash)
  · rw [if_neg hslash]
    exact if_neg fun hc => hslash (decide_eq_true hc)

lemma lookup_of_locate {location : Location} {followLast : Bool}
    (h : fs.locate followLast text = .ok location) :
    fs.lookup followLast text = .ok (.entry location) := by
  rw [locate] at h
  split at h
  · cases h
  · rename_i hw
    rw [hw, Except.ok.inj h]
  · cases h

/-- A path that names a link has no slashes behind the name. -/
lemma walkText_of_link {location : Location} {target : String}
    (h : fs.locate false text = .ok location) (hlink : fs.get? location = some (.link target)) :
    hasTrailingSlash text = false ∧
      fs.walkText false text (bareRoute text) = .ok (.entry location) := by
  have hw := lookup_of_locate h
  rw [lookup, route_eq_bareRoute] at hw
  split at hw
  · -- The walk would end in a directory.
    obtain ⟨middle, hmiddle, hd⟩ :=
      walk_front_isDirectory (List.cons_ne_nil "." []) (walkText_eq_ok_iff.1 hw).2
    have hdot := (walkText_eq_ok_iff.1 hw).2
    rw [walk_dot false hmiddle hd] at hdot
    obtain rfl := Arrival.entry.inj (Except.ok.inj hdot)
    rw [isDirectory, hlink] at hd
    cases hd
  · rename_i hslash
    exact ⟨Bool.eq_false_iff.2 hslash, hw⟩

/-- Where a path leads, the names of it lead to an entry as well when no link at the end
is followed. -/
lemma walkText_of_locate {location : Location} (h : fs.locate false text = .ok location) :
    ∃ there, fs.walkText false text (bareRoute text) = .ok (.entry there) := by
  have hw := lookup_of_locate h
  rw [lookup, route_eq_bareRoute] at hw
  split at hw
  · obtain ⟨htext, hwalk⟩ := walkText_eq_ok_iff.1 hw
    obtain ⟨middle, hmiddle⟩ := walk_front (List.cons_ne_nil "." []) hwalk
    obtain ⟨there, hthere⟩ := walk_unfollowed hmiddle
    exact ⟨there, walkText_eq_ok_iff.2 ⟨htext, hthere⟩⟩
  · exact ⟨location, hw⟩

/-- A directory that the names of a path lead to is found by the path, also if slashes trail it. -/
lemma locate_of_walkText {location : Location}
    (h : fs.walkText false text (bareRoute text) = .ok (.entry location))
    (hd : fs.isDirectory location) :
    fs.locate false text = .ok location := by
  obtain ⟨htext, hwalk⟩ := walkText_eq_ok_iff.1 h
  have hw : fs.walkText false text (route text) = .ok (.entry location) := by
    rw [route_eq_bareRoute]
    split
    · exact walkText_eq_ok_iff.2 ⟨htext, walk_dot false (walk_followed hd hwalk) hd⟩
    · exact h
  rw [locate, lookup, hw]

/-- A path that ends in a name leads to an entry of that name. -/
lemma exists_parent_of_walkText {location : Location}
    (h : fs.walkText false text (bareRoute text) = .ok (.entry location))
    (hl : lastName? text = some name) :
    ∃ parent node, location = parent ++ [name] ∧ fs.get? location = some node ∧
      ((∀ target, node ≠ .link target) →
        fs.walkText true text (bareRoute text) = .ok (.entry location)) := by
  obtain ⟨hlast, hdot, hup⟩ := lastName?_eq_some_iff.1 hl
  have hb := (List.dropLast_append_getLast? name hlast).symm
  obtain ⟨htext, hwalk⟩ := walkText_eq_ok_iff.1 h
  rw [hb] at hwalk
  obtain ⟨parent, node, hparent, hnode, hfollowed⟩ := walk_last hdot hup hwalk
  refine ⟨parent, node, hparent, hnode, fun hlink => walkText_eq_ok_iff.2 ⟨htext, ?_⟩⟩
  rw [hb]
  exact hfollowed hlink

/-- What it takes to remove a name. -/
lemma unlink_eq_ok_iff : fs.unlink text = .ok fs' ↔ ∃ location,
    fs.walkText false text (bareRoute text) = .ok (.entry location) ∧ lastName? text ≠ none ∧
      ¬ fs.isDirectory location ∧ hasTrailingSlash text = false ∧ fs.eraseTree location = fs' := by
  rw [unlink]
  split
  · rename_i e hw
    simp [hw]
  · rename_i hw
    simp [hw]
  · rename_i location hw
    rw [hw]
    split
    · rename_i hkind
      simp only [reduceCtorEq, false_iff, not_exists]
      rintro other ⟨he, hlast, hd, -⟩
      obtain rfl := Arrival.entry.inj (Except.ok.inj he)
      exact hkind.elim hlast hd
    · rename_i hkind
      rw [not_or] at hkind
      split
      · rename_i hslash
        simp [hslash]
      · rename_i hslash
        simp [hkind, hslash]

/-- What it takes to remove an empty directory. -/
lemma removeDirectory_eq_ok (h : fs.removeDirectory text = .ok fs') : ∃ location,
    fs.walkText false text (bareRoute text) = .ok (.entry location) ∧ lastName? text ≠ none ∧
      fs.isDirectory location ∧ fs.eraseTree location = fs' := by
  rw [removeDirectory] at h
  split at h
  · cases h
  · cases h
  rename_i location hw
  refine ⟨location, hw, ?_⟩
  -- `.` and `..` at the end are refused, and so is the root.
  split at h
  · cases h
  · cases h
  · cases h
  rename_i last hdot hup hlast
  split at h
  · cases h
  rename_i hd
  split at h
  · cases h
  refine ⟨?_, not_not.1 hd, Except.ok.inj h⟩
  rw [lastName?_eq_some_iff.2 ⟨hlast, hdot, hup⟩]
  simp

/-- The path by which a name was removed leads to the entry, if that was no link. -/
lemma unlink_eq_ok (h : fs.unlink text = .ok fs') :
    ∃ location node, fs.locate false text = .ok location ∧ fs.get? location = some node ∧
      ((∀ target, node ≠ .link target) → fs.locate true text = .ok location) ∧
      location ≠ [] ∧ fs' = fs.eraseTree location := by
  obtain ⟨location, hw, hlast, -, hslash, rfl⟩ := unlink_eq_ok_iff.1 h
  obtain ⟨last, hl⟩ := Option.ne_none_iff_exists'.1 hlast
  obtain ⟨parent, node, hparent, hnode, hfollowed⟩ := exists_parent_of_walkText hw hl
  have hroute : route text = bareRoute text := by
    rw [route_eq_bareRoute, if_neg (Bool.eq_false_iff.1 hslash)]
  refine ⟨location, node, ?_, hnode, fun hlink => ?_, by simp [hparent], rfl⟩
  · rw [locate, lookup, hroute, hw]
  · rw [locate, lookup, hroute, hfollowed hlink]

/-- An empty directory is removed by its name. -/
lemma removeDirectory_of_walkText
    (hw : fs.walkText false text (bareRoute text) = .ok (.entry place))
    (hl : lastName? text = some name) (hd : fs.isDirectory place) (hempty : fs.names place = []) :
    fs.removeDirectory text = .ok (fs.eraseTree place) := by
  obtain ⟨hlast, hdot, hup⟩ := lastName?_eq_some_iff.1 hl
  rw [removeDirectory, hw]
  dsimp only
  rw [hlast]
  split
  · next hl => cases hl
  · next hl => exact absurd (Option.some.inj hl) hdot
  · next hl => exact absurd (Option.some.inj hl) hup
  · rw [if_neg (not_not_intro hd), if_neg (not_not_intro hempty)]

/-! ## Paths that end in a name -/

lemma lastName?_of_base (hb : PlainName (Path.base text)) :
    lastName? text = some (Path.base text) :=
  lastName?_eq_some_iff.2
    ⟨by rw [Path.bareRoute_of_base hb.1, List.getLast?_concat], hb.2.1, hb.2.2.1⟩

lemma hasTrailingSlash_of_base (hb : PlainName (Path.base text)) :
    hasTrailingSlash text = false := by
  rw [hasTrailingSlash, decide_eq_false_iff_not]
  exact fun h => Path.getLast?_of_base hb.1 h.2

lemma lookup_of_base (hb : PlainName (Path.base text)) (fs : FileSystem) (followLast : Bool) :
    fs.lookup followLast text = fs.walkText followLast text (bareRoute text) := by
  rw [lookup, route_eq_of_last (Path.getLast?_of_base hb.1)]

lemma walkText_of_base (hb : PlainName (Path.base text)) (h : fs.locate false text = .ok place) :
    fs.walkText false text (bareRoute text) = .ok (.entry place) := by
  rw [← lookup_of_base hb]
  exact lookup_of_locate h

/-- A path that ends in a name leads to an entry, and it does not matter whether a link is followed
there unless the entry is one. -/
lemma exists_node_of_base (hb : PlainName (Path.base text)) (h : fs.locate false text = .ok place) :
    ∃ node, fs.get? place = some node ∧ place ≠ [] ∧
      ((∀ target, node ≠ .link target) → fs.locate true text = .ok place) := by
  obtain ⟨parent, node, rfl, hnode, hfollowed⟩ :=
    exists_parent_of_walkText (walkText_of_base hb h) (lastName?_of_base hb)
  refine ⟨node, hnode, by simp, fun hlink => ?_⟩
  rw [locate, lookup_of_base hb, hfollowed hlink]

end FileSystem

namespace Action

/-- The removal of a path that names something, told by the removal of the entry. -/
lemma on_removePath (hne : text ≠ "") (fs : FileSystem) :
    (removePath (some text)).on fs =
      match (removeEntry text).on fs with
      | (.ok (), fs') => (.ok true, fs')
      | (.error failure, fs') =>
        if failure = .file (.os .notFound) then (.ok false, fs') else (.error failure, fs') := by
  rw [removePath, if_neg hne, on_tryCatch, on_bind]
  rcases (removeEntry text).on fs with ⟨failure | ⟨⟩, fs'⟩
  · dsimp only
    split
    · rfl
    · rfl
  · rfl

lemma on_removeEntry (text : String) (fs : FileSystem) :
    (removeEntry text).on fs =
      if (fs.leadsToDirectory text && !fs.leadsToLink text) = true then (removeTree text).on fs
      else (change fun fs => fs.unlink text).on fs := by
  rw [removeEntry, on_bind_ok on_get]
  split <;> rfl

lemma on_removeEntry_of_not_directory (h : fs.leadsToDirectory text = false) :
    (removeEntry text).on fs = (change fun fs => fs.unlink text).on fs := by
  rw [on_removeEntry, h, Bool.false_and, if_neg (by simp)]

/-- Where no name can be removed, nothing happens. -/
lemma removePath_of_unlink (hdir : fs.leadsToDirectory text = false)
    (h : ∀ fs', fs.unlink text ≠ .ok fs') : ((removePath (some text)).on fs).2 = fs := by
  by_cases hne : text = ""
  · rw [hne]
    rfl
  obtain ⟨failure, hentry⟩ : ∃ failure, (removeEntry text).on fs = (.error failure, fs) := by
    rw [on_removeEntry_of_not_directory hdir, on_change]
    cases hunlink : fs.unlink text with
    | error e => exact ⟨_, rfl⟩
    | ok fs' => exact absurd hunlink (h fs')
  rw [on_removePath hne, hentry]
  dsimp only
  split <;> rfl

/-- What is not there is not removed. -/
lemma removePath_unchanged (hnode : fs.node? text = none)
    (hw : ∀ location, fs.walkText false text (bareRoute text) ≠ .ok (.entry location)) :
    ((removePath (some text)).on fs).2 = fs := by
  have hdir : fs.leadsToDirectory text = false := by
    rw [leadsToDirectory, hnode]
    rfl
  refine removePath_of_unlink hdir ?_
  intro fs' hunlink
  rw [unlink] at hunlink
  split at hunlink
  · cases hunlink
  · cases hunlink
  · rename_i location hwalk
    exact hw location hwalk

/-- Where nothing stands, nothing is removed. -/
lemma removePath_missing (h : fs.LeadsTo dir place) (ht : NamedText dir name text)
    (hn : PlainName name) (hnone : fs.get? (place ++ [name]) = none) :
    ((removePath (some text)).on fs).2 = fs := by
  refine removePath_unchanged (h.node?_none ht hn hnone) ?_
  intro location
  rcases h.walkText_none false ht hn hnone with hw | ⟨e, hw, -⟩
  · simp [hw]
  · simp [hw]

/-- A refused text removes nothing. -/
lemma removePath_of_checkText {e : FileError} (hne : text ≠ "") (h : checkText text = .error e)
    (he : e ≠ .os .notFound) : (removePath (some text)).on fs = (.error (.file e), fs) := by
  have hdir : fs.leadsToDirectory text = false := by
    rw [leadsToDirectory, node?_of_checkText h]
    rfl
  have hentry : (removeEntry text).on fs = (.error (.file e), fs) := by
    rw [on_removeEntry_of_not_directory hdir, on_change, unlink, walkText, h]
  rw [on_removePath hne, hentry]
  dsimp only
  rw [if_neg (by simpa using he)]

/-- Anything but a directory is removed by its name. -/
lemma removePath_of_not_directory (hb : PlainName (Path.base text))
    (h : fs.locate false text = .ok place) (hd : ¬ fs.isDirectory place) :
    (removePath (some text)).on fs = (.ok true, fs.eraseTree place) := by
  have hne : text ≠ "" := fun he => hb.1 (by rw [he]; rfl)
  obtain ⟨node, hnode, -, hfollowed⟩ := exists_node_of_base hb h
  have hkind : (fs.leadsToDirectory text && !fs.leadsToLink text) = false := by
    by_cases hlink : ∃ target, node = .link target
    · obtain ⟨target, rfl⟩ := hlink
      have htrue : fs.leadsToLink text = true := by
        rw [leadsToLink, h, Except.toOption, Option.bind, hnode]
      rw [htrue, Bool.not_true, Bool.and_false]
    · have hfound := hfollowed fun target he => hlink ⟨target, he⟩
      have hfalse : fs.leadsToDirectory text = false := by
        rw [leadsToDirectory, node?, hfound, decide_eq_false_iff_not]
        exact hd
      rw [hfalse, Bool.false_and]
  have hunlink : fs.unlink text = .ok (fs.eraseTree place) :=
    unlink_eq_ok_iff.2 ⟨place, walkText_of_base hb h, by rw [lastName?_of_base hb]; simp, hd,
      hasTrailingSlash_of_base hb, rfl⟩
  have hentry : (removeEntry text).on fs = (.ok (), fs.eraseTree place) := by
    rw [on_removeEntry, hkind, if_neg (by simp), on_change, hunlink]
  rw [on_removePath hne, hentry]

/-- A file is removed by its name. -/
lemma removePath_file (h : fs.LeadsTo dir place) (ht : EntryText dir name text)
    (hn : PlainName name) (hc : checkText text = .ok ())
    (hf : fs.get? (place ++ [name]) = some (.file content)) :
    ∃ fs', (removePath (some text)).on fs = (.ok true, fs') ∧ fs.Cleared fs' (place ++ [name]) := by
  have hb : PlainName (Path.base text) := by rwa [ht.base]
  have hl : fs.locate false text = .ok (place ++ [name]) := h.locate_entry ht hn hc hf (.inl rfl)
  have hnot : ¬ fs.isDirectory (place ++ [name]) := by
    rw [isDirectory, hf]
    simp
  exact ⟨_, removePath_of_not_directory hb hl hnot, cleared_eraseTree fs (by simp)⟩

/-! ## Directories -/

/-- Nothing is left in a directory that has been emptied. -/
lemma names_eraseBelow (fs : FileSystem) (location : Location) :
    (fs.eraseBelow location).names location = [] := by
  refine List.eq_nil_iff_forall_not_mem.2 ?_
  intro name hm
  obtain ⟨node, hn⟩ := mem_names_iff.1 hm
  rw [get?_eraseBelow (by simp), if_pos ⟨List.prefix_append _ _, by simp⟩] at hn
  cases hn

end Action

namespace FileSystem

/-- An empty directory is removed by its name. -/
lemma LeadsTo.removeDirectory_entry (h : fs.LeadsTo dir place) (ht : NamedText dir name text)
    (hn : PlainName name) (hc : checkText text = .ok ()) (hd : fs.isDirectory (place ++ [name]))
    (hempty : fs.names (place ++ [name]) = []) :
    fs.removeDirectory text = .ok (fs.eraseTree (place ++ [name])) :=
  removeDirectory_of_walkText (h.walkText_entry ht hn hc hd (.inl rfl))
    (lastName?_eq_some_iff.2 ⟨ht.getLast?_bareRoute, hn.2.1, hn.2.2.1⟩) hd hempty

end FileSystem

namespace Action

/-- A directory is emptied and removed. -/
lemma removePath_directory (hb : base.LeadsTo dir place) (hg : base.Grows fs)
    (hnone : base.get? (place ++ [name]) = none) (ht : NamedText dir name text)
    (hn : PlainName name) (hc : checkText text = .ok ()) (hd : fs.isDirectory (place ++ [name])) :
    ∃ fs', (removePath (some text)).on fs = (.ok true, fs') ∧ fs.Cleared fs' (place ++ [name]) := by
  have hemptied := changesOnly_eraseBelow fs (place ++ [name])
  have h := hb.grows hg
  have h' := hb.grows (hemptied.grows hg hnone)
  have hd₀ : fs.get? (place ++ [name]) = some .directory := hd
  have hdir : fs.leadsToDirectory text = true := by
    rw [leadsToDirectory, node?, h.locate_directory ht hn hc hd, Except.toOption, Option.bind, hd₀]
    rfl
  have hlink : fs.leadsToLink text = false := by
    rw [leadsToLink, h.locate_directory ht hn hc hd, Except.toOption, Option.bind, hd₀]
  have hd' : (fs.eraseBelow (place ++ [name])).isDirectory (place ++ [name]) := by
    rw [isDirectory, get?_eraseBelow (by simp), if_neg (by simp), hd₀]
  have hentry : (removeEntry text).on fs =
      (.ok (), (fs.eraseBelow (place ++ [name])).eraseTree (place ++ [name])) := by
    rw [on_removeEntry, hdir, hlink, Bool.not_false, Bool.and_true, if_pos rfl, removeTree, on_bind,
      on_query, h.locate_directory ht hn hc hd]
    dsimp only
    rw [on_bind_ok (on_modify _), on_change,
      h'.removeDirectory_entry ht hn hc hd' (names_eraseBelow fs _)]
  have hcleared : (fs.eraseBelow (place ++ [name])).Cleared _ (place ++ [name]) :=
    cleared_eraseTree _ (by simp)
  refine ⟨_, ?_, ⟨hemptied.trans hcleared.toChangesOnly, hcleared.gone⟩⟩
  rw [on_removePath ht.ne_empty, hentry]

end Action

end SourceAtlas
