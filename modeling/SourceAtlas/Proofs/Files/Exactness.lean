import SourceAtlas.Proofs.Files.Loss
import SourceAtlas.Proofs.Files.Standing

/-!
# Removing exactly one entry

Where a path that ends in a name leads decides what its removal does.  If it leads nowhere, nothing
happens.  If it leads to anything but a directory, the entry is gone and the rest is as it was.  If
it leads to a directory, the directory is emptied, and its path is followed once more: then the
directory is gone as well, or it is not found any more and stays (`removePath_of_locate`).

The latter happens when the path leads through what is below the directory, as `d/x/../../d`
does.  A path that does not is `FileSystem.Aside`.  The removal of such a path takes away what
the path stands for and nothing else, and its result tells whether there was anything
(`removePath_exact`).  For all other paths the content is lost and the result says that nothing
was there (`removePath_astray`).
-/

namespace SourceAtlas

open FileSystem SourceAtlas.Action

variable {fs fs' : FileSystem} {place location other : Location} {text : String}

namespace FileSystem

/-! ## Times of what is kept -/

lemma modified_keep {touched : Option Location} {p : Location → Bool} {closed}
    (hp : p location = true) (ht : some location ≠ touched) :
    (fs.keep touched p closed).modified location = fs.modified location := by
  have hstamps : (fs.keep touched p closed).stamps.lookup location = fs.stamps.lookup location := by
    have hfilter := @lookup_filter Binary64 fs.stamps
      (fun other => p other && decide (some other ≠ touched)) location
    rw [if_pos (by simp [hp, ht])] at hfilter
    exact hfilter
  rw [modified, modified, hstamps]
  rfl

/-- A removal changes the time of the directory above, and no other that is left. -/
lemma modified_eraseTree (hp : ¬ place <+: location) (hne : location ≠ place.dropLast) :
    (fs.eraseTree place).modified location = fs.modified location :=
  modified_keep (decide_eq_true hp) (by simpa using hne)

lemma modified_eraseBelow (hp : ¬ place <+: location) :
    (fs.eraseBelow place).modified location = fs.modified location := by
  refine modified_keep (decide_eq_true fun hc => hp hc.1) ?_
  split
  · simp
  · exact fun he => hp (Option.some.inj he ▸ List.prefix_refl _)

/-- What has been emptied first is removed as if it had not. -/
lemma eraseTree_eraseBelow (fs : FileSystem) (place : Location) :
    (fs.eraseBelow place).eraseTree place = fs.eraseTree place := by
  have hentries (entry : Location × Node) :
      (decide (¬ place <+: entry.1) && decide (¬ (place <+: entry.1 ∧ place ≠ entry.1))) =
        decide (¬ place <+: entry.1) := by
    by_cases hp : place <+: entry.1 <;> simp [hp]
  have hstamps (touched : Option Location) (ht : touched = none ∨ touched = some place)
      (stamp : Location × Binary64) :
      ((decide (¬ place <+: stamp.1) && decide (some stamp.1 ≠ some place.dropLast)) &&
        (decide (¬ (place <+: stamp.1 ∧ place ≠ stamp.1)) && decide (some stamp.1 ≠ touched))) =
        (decide (¬ place <+: stamp.1) && decide (some stamp.1 ≠ some place.dropLast)) := by
    by_cases hp : place <+: stamp.1
    · simp [hp]
    · have hne : stamp.1 ≠ place := fun he => hp (he ▸ List.prefix_refl _)
      rcases ht with rfl | rfl <;> simp [hp, hne]
  have htouched : (if fs.names place = [] then none else some place) = none ∨
      (if fs.names place = [] then none else some place) = some place := by
    split
    · exact .inl rfl
    · exact .inr rfl
  simp only [eraseTree, eraseBelow, keep, List.filter_filter, hentries, hstamps _ htouched]

/-! ## Following a path after a loss -/

/-- Something is missing on a leg, or at the end of it. -/
def EndsNowhere (leg : Leg) : Prop :=
  leg = .stopped .notFound ∨ ∃ parent name, leg = .arrived (.vacant parent name)

lemma walk_of_endsNowhere {followLast : Bool} {budget : Nat} {here : Location} {names : List String}
    (h : EndsNowhere (fs.advance followLast here names)) :
    fs.walk followLast budget here names = .error .notFound ∨
      ∃ parent name, fs.walk followLast budget here names = .ok (.vacant parent name) := by
  rcases h with he | ⟨parent, name, he⟩
  · exact .inl (walk_of_stopped he)
  · exact .inr ⟨parent, name, walk_of_arrived he⟩

/-- After a loss, a leg is as it was, or something is missing. -/
lemma advance_of_losesOnly {lost : Location → Prop} (h : fs.LosesOnly fs' lost) (followLast : Bool)
    (here : Location) (names : List String) :
    fs'.advance followLast here names = fs.advance followLast here names ∨
      EndsNowhere (fs'.advance followLast here names) := by
  induction names generalizing here with
  | nil => exact .inl rfl
  | cons name names ih =>
    rcases h.kept_or_lost here with hsame | ⟨hgone, -⟩
    · rw [advance, advance, hsame]
      split
      · exact .inl rfl
      · split
        · exact ih here
        split
        · exact ih here.dropLast
        split
        · exact .inl rfl
        rcases h.kept_or_lost (here ++ [name]) with hnext | ⟨hnext, -⟩
        · rw [hnext]
          split
          · exact .inl rfl
          · exact .inl rfl
          · exact ih _
        · rw [hnext]
          by_cases hnil : names = []
          · exact .inr (.inr ⟨here, name, if_pos hnil⟩)
          · exact .inr (.inl (if_neg hnil))
      · exact .inl rfl
    · exact .inr (.inl (by rw [advance, hgone]))

/-- Leg by leg, a walk goes where it went before a loss, until something is missing. -/
lemma walk_of_losesOnly {lost : Location → Prop} {followLast : Bool} {budget : Nat}
    {here : Location} {names : List String} (h : fs.LosesOnly fs' lost)
    (hw : fs.walk followLast budget here names = .ok (.entry place)) :
    fs'.walk followLast budget here names = .ok (.entry place) ∨
      fs'.walk followLast budget here names = .error .notFound ∨
        ∃ parent name, fs'.walk followLast budget here names = .ok (.vacant parent name) := by
  refine walk_induction (motive := fun budget here names =>
    fs'.walk followLast budget here names = .ok (.entry place) ∨
      fs'.walk followLast budget here names = .error .notFound ∨
        ∃ parent name, fs'.walk followLast budget here names = .ok (.vacant parent name)) ?_ ?_ hw
  · intro budget here names ha
    rcases advance_of_losesOnly h followLast here names with he | he
    · exact .inl (walk_of_arrived (he.trans ha))
    · exact .inr (walk_of_endsNowhere he)
  · intro budget here names start onward ha ih
    rcases advance_of_losesOnly h followLast here names with he | he
    · rw [walk_of_detour (he.trans ha)]
      exact ih
    · exact .inr (walk_of_endsNowhere he)

/-- After a loss, a path leads to what it led to, or to nothing. -/
lemma locate_of_losesOnly {lost : Location → Prop} {followLast : Bool} (h : fs.LosesOnly fs' lost)
    (hl : fs.locate followLast text = .ok place) :
    fs'.locate followLast text = .ok place ∨
      fs'.locate followLast text = .error (.os .notFound) := by
  obtain ⟨htext, hwalk⟩ := walkText_eq_ok_iff.1 (lookup_of_locate hl)
  rw [← h.workingDirectory] at hwalk
  rw [locate, lookup, walkText, htext]
  rcases walk_of_losesOnly h hwalk with hw | hw | ⟨parent, name, hw⟩
  · rw [hw]
    exact .inl rfl
  · rw [hw]
    exact .inr rfl
  · rw [hw]
    exact .inr rfl

/-! ## Paths that lead nowhere -/

/-- A path that leads nowhere leads nowhere when links are followed. -/
lemma leadsToDirectory_of_error {e : FileError} (h : fs.locate false text = .error e) :
    fs.leadsToDirectory text = false := by
  rw [leadsToDirectory, decide_eq_false_iff_not, node?]
  cases hl : fs.locate true text with
  | error e => simp [Except.toOption]
  | ok there =>
    obtain ⟨htext, hwalk⟩ := walkText_eq_ok_iff.1 (lookup_of_locate hl)
    obtain ⟨found, hfound⟩ := walk_unfollowed hwalk
    have hlookup : fs.lookup false text = .ok (.entry found) := walkText_eq_ok_iff.2 ⟨htext, hfound⟩
    rw [locate, hlookup] at h
    cases h

/-- Where a path leads nowhere, its name cannot be removed for the same reason. -/
lemma unlink_of_error {e : FileError} (hb : PlainName (Path.base text))
    (h : fs.locate false text = .error e) :
    fs.unlink text = .error e := by
  rw [locate, lookup_of_base hb] at h
  rw [unlink]
  split at h
  · next hw =>
    obtain rfl := Except.error.inj h
    rw [hw]
  · cases h
  · next hw =>
    obtain rfl := Except.error.inj h
    rw [hw]

/-! ## Paths that do not lead through what they name -/

/-- The path of an entry does not lead through what is below the entry. -/
def Aside (fs : FileSystem) (text : String) : Prop :=
  ∀ place, fs.locate false text = .ok place → (fs.eraseBelow place).locate false text = .ok place

instance (fs : FileSystem) (text : String) : Decidable (fs.Aside text) :=
  match h : fs.locate false text with
  | .error _ => isTrue fun _ hl => by rw [h] at hl; cases hl
  | .ok place =>
    decidable_of_iff ((fs.eraseBelow place).locate false text = .ok place)
      ⟨fun he _ hl => by rw [h] at hl; obtain rfl := Except.ok.inj hl; exact he,
        fun he => he place h⟩

/-- A directory that is empty is removed by a path that leads to it. -/
lemma removeDirectory_of_locate (hb : PlainName (Path.base text))
    (h : fs.locate false text = .ok place) (hd : fs.isDirectory place)
    (hempty : fs.names place = []) :
    fs.removeDirectory text = .ok (fs.eraseTree place) :=
  removeDirectory_of_walkText (walkText_of_base hb h) (lastName?_of_base hb) hd hempty

lemma removeDirectory_of_error {e : FileError} (hb : PlainName (Path.base text))
    (h : fs.locate false text = .error e) : fs.removeDirectory text = .error e := by
  rw [locate, lookup_of_base hb] at h
  rw [removeDirectory]
  split at h
  · next hw =>
    obtain rfl := Except.error.inj h
    rw [hw]
  · cases h
  · next hw =>
    obtain rfl := Except.error.inj h
    rw [hw]

end FileSystem

namespace Action

/-! ## What a removal does -/

/-- What is not found is not removed. -/
lemma removePath_of_error {e : FileError} (hb : PlainName (Path.base text))
    (h : fs.locate false text = .error e) :
    (removePath (some text)).on fs =
      (if e = .os .notFound then .ok false else .error (.file e), fs) := by
  have hne : text ≠ "" := fun he => hb.1 (by rw [he]; rfl)
  have hentry : (removeEntry text).on fs = (.error (.file e), fs) := by
    rw [on_removeEntry_of_not_directory (leadsToDirectory_of_error h), on_change,
      unlink_of_error hb h]
  rw [on_removePath hne, hentry]
  by_cases he : e = .os .notFound <;> simp [he]

/-- A directory is emptied, and then removed if it is still found. -/
lemma removePath_of_directory (hb : PlainName (Path.base text))
    (h : fs.locate false text = .ok place) (hd : fs.isDirectory place) :
    (removePath (some text)).on fs =
      if (fs.eraseBelow place).locate false text = .ok place then (.ok true, fs.eraseTree place)
      else (.ok false, fs.eraseBelow place) := by
  have hne : text ≠ "" := fun he => hb.1 (by rw [he]; rfl)
  obtain ⟨node, hnode, hplace, hfollowed⟩ := exists_node_of_base hb h
  have hd' : fs.get? place = some .directory := hd
  obtain rfl : node = .directory := Option.some.inj (hnode.symm.trans hd')
  have hkind : (fs.leadsToDirectory text && !fs.leadsToLink text) = true := by
    have hdirectory : fs.leadsToDirectory text = true := by
      rw [leadsToDirectory, node?, hfollowed (by simp), decide_eq_true_eq]
      exact hd
    have hlink : fs.leadsToLink text = false := by
      rw [leadsToLink, h, Except.toOption, Option.bind, hnode]
    rw [hdirectory, hlink, Bool.not_false, Bool.and_self]
  have hentry : (removeEntry text).on fs =
      (change fun fs => fs.removeDirectory text).on (fs.eraseBelow place) := by
    rw [on_removeEntry, hkind, if_pos rfl, removeTree, on_bind, on_query, h]
    dsimp only
    rw [on_bind_ok (on_modify _)]
  have hkept : (fs.eraseBelow place).isDirectory place := by
    rw [isDirectory, get?_eraseBelow hplace, if_neg (by simp), hd']
  rw [on_removePath hne, hentry, on_change]
  by_cases hfound : (fs.eraseBelow place).locate false text = .ok place
  · rw [if_pos hfound, removeDirectory_of_locate hb hfound hkept (names_eraseBelow fs place),
      eraseTree_eraseBelow]
  · have hmissing := (locate_of_losesOnly (losesOnly_eraseBelow fs place) h).resolve_left hfound
    rw [if_neg hfound, removeDirectory_of_error hb hmissing]
    rfl

/-- An entry that its path does not lead through is removed. -/
lemma removePath_of_locate (hb : PlainName (Path.base text)) (h : fs.locate false text = .ok place)
    (ha : fs.Aside text) : (removePath (some text)).on fs = (.ok true, fs.eraseTree place) := by
  by_cases hd : fs.isDirectory place
  · rw [removePath_of_directory hb h hd, if_pos (ha place h)]
  · exact removePath_of_not_directory hb h hd

end Action

namespace FileSystem

/-- An entry is gone, with everything below it if it was a directory, and the rest is as it was.
Only the time of the directory that held it has changed. -/
structure Removed (fs fs' : FileSystem) (place : Location) : Prop where
  workingDirectory : fs'.workingDirectory = fs.workingDirectory
  present : fs'.present = fs.present
  gone : ∀ location, fs.Spans place location → fs'.get? location = none
  kept : ∀ location, ¬ fs.Spans place location → fs'.get? location = fs.get? location
  modified : ∀ location node, ¬ fs.Spans place location → location ≠ place.dropLast →
    fs.get? location = some node → fs'.modified location = fs.modified location

lemma removed_eraseTree (fs : FileSystem) (hne : place ≠ []) :
    fs.Removed (fs.eraseTree place) place := by
  have hcleared := cleared_eraseTree fs hne
  constructor
  · exact rfl
  · exact rfl
  · rintro location (rfl | ⟨-, hp⟩)
    · exact hcleared.gone
    · exact get?_eq_none_of_above hcleared.gone hp
  · intro location hspans
    rcases (losesOnly_eraseTree fs hne).kept_or_lost location with hsame | ⟨hgone, hp⟩
    · exact hsame
    · -- What lies below something that spans nothing is not there to begin with.
      rw [hgone]
      cases hn : fs.get? location with
      | none => rfl
      | some node =>
        have hspanned := spans_of_prefix hp hn
        exact absurd hspanned hspans
  · intro location node hspans hparent hn
    refine modified_eraseTree (fun hp => ?_) hparent
    have hspanned := spans_of_prefix hp hn
    exact hspans hspanned

end FileSystem

/-- What the removal of a path does, if it does what is asked for: the entry that the path leads to
is gone, and nothing else, and the answer tells whether there was one.  A link spans itself alone
(`FileSystem.spans_link`), so what it points to is kept. -/
structure RemovesExactly (fs : FileSystem) (target : Option String)
    (outcome : Except Failure Bool × FileSystem) : Prop where
  answers : ∀ text place, target = some text → fs.locate false text = .ok place →
    outcome.1 = .ok true
  of_true : outcome.1 = .ok true → ∃ text place node, target = some text ∧
    fs.locate false text = .ok place ∧ fs.get? place = some node ∧ fs.Removed outcome.2 place
  of_false : outcome.1 = .ok false → outcome.2 = fs ∧
    ∀ text, target = some text → text ≠ "" → fs.locate false text = .error (.os .notFound)
  of_failure : ∀ failure, outcome.1 = .error failure → outcome.2 = fs

lemma removesExactly_of_unasked {target : Option String}
    (h : ∀ text, target = some text → text = "") (fs : FileSystem) :
    RemovesExactly fs target ((removePath target).on fs) := by
  have hrun : (removePath target).on fs = (.ok false, fs) := by
    cases target with
    | none => rfl
    | some text =>
      obtain rfl := h text rfl
      rfl
  rw [hrun]
  constructor
  · intro text place ht hl
    obtain rfl := h text ht
    rw [locate_of_checkText (e := .os .notFound) false rfl] at hl
    cases hl
  · intro he
    cases he
  · exact fun _ => ⟨rfl, fun text ht hne => absurd (h text ht) hne⟩
  · intro failure he
    cases he

/-- The removal of a path that ends in a name and does not lead through what it names is exact. -/
theorem removePath_exact (fs : FileSystem) (target : Option String)
    (hname : ∀ text, target = some text → text ≠ "" → PlainName (Path.base text))
    (haside : ∀ text, target = some text → fs.Aside text) :
    RemovesExactly fs target ((removePath target).on fs) := by
  by_cases hasked : ∃ text, target = some text ∧ text ≠ ""
  · obtain ⟨text, rfl, hne⟩ := hasked
    have hb := hname text rfl hne
    cases hl : fs.locate false text with
    | ok place =>
      obtain ⟨node, hnode, hplace, -⟩ := exists_node_of_base hb hl
      rw [removePath_of_locate hb hl (haside text rfl)]
      refine ⟨fun _ _ _ _ => rfl, fun _ => ?_, fun he => ?_, fun failure he => ?_⟩
      · exact ⟨text, place, node, rfl, hl, hnode, removed_eraseTree fs hplace⟩
      · cases he
      · cases he
    | error e =>
      rw [removePath_of_error hb hl]
      refine ⟨fun other place ho hfound => ?_, fun he => ?_, fun he => ⟨rfl, ?_⟩, fun _ _ => rfl⟩
      · obtain rfl := Option.some.inj ho
        rw [hl] at hfound
        cases hfound
      · dsimp only at he
        split at he <;> cases he
      · rintro other ho -
        obtain rfl := Option.some.inj ho
        dsimp only at he
        split at he
        · next hmissing => rw [hl, hmissing]
        · cases he
  · refine removesExactly_of_unasked (fun text ht => ?_) fs
    by_contra hne
    exact hasked ⟨text, ht, hne⟩

/-- A directory that holds a link to another one, and a link by way of which it can be reached. -/
def linkedFiles : FileSystem :=
  (((((FileSystem.empty [] ⟨0⟩).insert ["d"] .directory).insert ["d", "l"] (.link "../e")).insert
    ["e"] .directory).insert ["e", "f"] (.file .empty)).insert ["s"] (.link "e")

/-- What the links inside a directory lead to is kept. -/
theorem removePath_exact_linked :
    (∀ text, some "s/../d" = some text → text ≠ "" → PlainName (Path.base text)) ∧
      (∀ text, some "s/../d" = some text → linkedFiles.Aside text) ∧
      RemovesExactly linkedFiles (some "s/../d") ((removePath (some "s/../d")).on linkedFiles) := by
  have hname : ∀ text, some "s/../d" = some text → text ≠ "" → PlainName (Path.base text) := by
    rintro text ht -
    obtain rfl := Option.some.inj ht
    exact ValidName.plain (by decide +kernel)
  have haside : ∀ text, some "s/../d" = some text → linkedFiles.Aside text := by
    intro text ht
    obtain rfl := Option.some.inj ht
    decide +kernel
  exact ⟨hname, haside, removePath_exact linkedFiles (some "s/../d") hname haside⟩

/-! ## Paths that lead through what they name -/

namespace FileSystem

/-- Below anything but a directory there is nothing to lead through. -/
lemma locate_eraseBelow_of_not_directory (hd : ¬ fs.isDirectory place)
    (h : fs.locate false text = .ok place) :
    (fs.eraseBelow place).locate false text = .ok place := by
  have halike : fs.Alike (fs.eraseBelow place) := by
    refine ⟨rfl, fun location => ?_⟩
    by_cases hnil : location = []
    · rw [hnil, get?_nil, get?_nil]
    · rw [get?_eraseBelow hnil]
      split
      · next hbelow =>
        cases hn : fs.get? location with
        | none => rfl
        | some node => exact absurd (isDirectory_of_above hn hbelow.1 hbelow.2) hd
      · rfl
  exact locate_of_grows halike.grows h

end FileSystem

/-- The directory that a path leads through to itself is emptied, and the answer is that there
was nothing. -/
theorem removePath_astray (fs : FileSystem) (hb : PlainName (Path.base text))
    (h : ¬ fs.Aside text) :
    ∃ place, fs.locate false text = .ok place ∧ fs.isDirectory place ∧
      (removePath (some text)).on fs = (.ok false, fs.eraseBelow place) := by
  rw [Aside] at h
  push Not at h
  obtain ⟨place, hl, hlost⟩ := h
  have hd : fs.isDirectory place := by
    by_contra hd
    exact hlost (locate_eraseBelow_of_not_directory hd hl)
  exact ⟨place, hl, hd, by rw [removePath_of_directory hb hl hd, if_neg hlost]⟩

/-- A directory in a directory. -/
def nestedFiles : FileSystem :=
  ((FileSystem.empty [] ⟨0⟩).insert ["d"] .directory).insert ["d", "x"] .directory

/-- A directory is left behind empty. -/
theorem content_is_lost :
    (removePath (some "d/x/../../d")).on nestedFiles = (.ok false, nestedFiles.eraseBelow ["d"]) ∧
      nestedFiles.isDirectory ["d", "x"] ∧ (nestedFiles.eraseBelow ["d"]).get? ["d", "x"] = none ∧
      (nestedFiles.eraseBelow ["d"]).isDirectory ["d"] := by
  have hb : PlainName (Path.base "d/x/../../d") := ValidName.plain (by decide +kernel)
  have hplace : nestedFiles.locate false "d/x/../../d" = .ok ["d"] := by decide +kernel
  have hastray : ¬ nestedFiles.Aside "d/x/../../d" := by decide +kernel
  obtain ⟨place, hl, -, hrun⟩ := removePath_astray nestedFiles hb hastray
  obtain rfl := Except.ok.inj (hplace.symm.trans hl)
  exact ⟨hrun, by decide +kernel, by decide +kernel, by decide +kernel⟩

end SourceAtlas
