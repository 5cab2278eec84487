import SourceAtlas.Proofs.Files.Straight

/-!
# What single operations do

For each operation on the path text of a straight location, one statement says what it can do if it
is granted, and others say when it is granted.  Operations by an arbitrary path text are described
by where the walk of the text ends.
-/

namespace SourceAtlas

/-- A location whose path text can be handed to the file system. -/
structure Location.Utterable (location : Location) : Prop where
  zero_notMem : '\x00' ∉ location.toPath.toList
  size_le : location.toPath.utf8ByteSize ≤ maxPathBytes

lemma Location.Utterable.upper {above location : Location} (h : location.Utterable)
    (hp : above <+: location) : above.Utterable := by
  refine ⟨fun hz => ?_, Nat.le_trans (Location.size_toPath_le hp) h.size_le⟩
  obtain ⟨name, hn, hz⟩ := Location.zero_mem_toPath.1 hz
  exact h.zero_notMem (Location.zero_mem_toPath.2 ⟨name, hp.subset hn, hz⟩)

namespace FileSystem

variable {fs fs' : FileSystem} {followLast : Bool} {location place : Location} {node : Node}
  {path : String}

/-! ## Vacant places -/

lemma OpenPlace.vacant {parent : Location} {name : String} (h : fs.OpenPlace parent name)
    (hn : ValidName name) : fs.Vacant (parent ++ [name]) := by
  refine ⟨by simp, fun other ho => ?_, ?_, h.get?⟩
  · obtain rfl : name = other := by simpa using ho
    exact hn
  · rw [List.dropLast_concat]
    exact h.descends.isDirectory

lemma Vacant.get? (h : fs.Vacant location) : fs.get? location = none := h.2.2.2

lemma insert_grows (h : fs.Vacant location) : fs.Grows (fs.insert location node) := by
  refine ⟨by rw [insert, dif_pos h], fun {other found} ho => ⟨found, ?_, rfl⟩⟩
  rw [get?_insert h, if_neg, ho]
  rintro rfl
  rw [h.get?] at ho
  cases ho

/-- What is found after the content of a file has been replaced. -/
lemma get?_overwrite_of_ne {content : ByteArray} {other : Location} (h : other ≠ location) :
    (fs.overwrite location content).get? other = fs.get? other := by
  rw [get?_overwrite]
  cases hn : fs.get? other with
  | none => rfl
  | some found => cases found <;> simp [withContent, h]

lemma get?_overwrite_self {content old : ByteArray} (h : fs.get? location = some (.file old)) :
    (fs.overwrite location content).get? location = some (.file content) := by
  simp [get?_overwrite, h, withContent]

/-! ## Operations by any path text -/

/-- What a walk without following the last link finds missing has the last name of the path text. -/
lemma walkText_vacant {parent : Location} {name : String}
    (h : fs.walkText false path (bareRoute path) = .ok (.vacant parent name)) :
    fs.Vacant (parent ++ [name]) := by
  obtain ⟨htext, hwalk⟩ := walkText_eq_ok_iff.1 h
  obtain ⟨hopen, hlast⟩ := walk_vacant hwalk
  have hmem : name ∈ bareRoute path := List.mem_of_getLast? (hlast rfl)
  rw [bareRoute, List.mem_filter, decide_eq_true_eq] at hmem
  refine hopen.vacant ⟨hmem.2, hopen.descends.ne_dot, hopen.descends.ne_up,
    Path.slash_notMem_of_mem_segments hmem.1, fun hz => ?_, hopen.descends.size_le⟩
  exact (checkText_eq_ok_iff.1 htext).1 (Path.mem_of_mem_segments hmem.1 hz)

/-- A walk that found nothing finds what has been put there. -/
lemma walkText_filled {parent : Location} {name : String} (hg : fs.Grows fs')
    (hn : fs'.get? (parent ++ [name]) = some node) (hl : ∀ target, node ≠ .link target)
    {names : List String} (h : fs.walkText followLast path names = .ok (.vacant parent name)) :
    fs'.walkText followLast path names = .ok (.entry (parent ++ [name])) := by
  obtain ⟨htext, hwalk⟩ := walkText_eq_ok_iff.1 h
  rw [walkText_eq_ok_iff, hg.workingDirectory]
  exact ⟨htext, walk_filled hg hn hl hwalk⟩

/-- A directory is made where the walk of the path text finds nothing. -/
lemma makeDirectory_eq_ok (h : fs.makeDirectory path = .ok fs') :
    ∃ parent name, fs.walkText false path (bareRoute path) = .ok (.vacant parent name) ∧
      fs.Vacant (parent ++ [name]) ∧ fs' = fs.insert (parent ++ [name]) .directory := by
  unfold makeDirectory at h
  split at h
  · cases h
  · cases h
  rename_i parent name hw
  exact ⟨parent, name, hw, walkText_vacant hw, by simpa using h.symm⟩

/-! ## Operations along a straight location -/

lemma checkText_toPath_of_utterable (h : location.Utterable) : checkText location.toPath = .ok () :=
  checkText_eq_ok_iff.2 ⟨h.zero_notMem, location.toPath_ne_empty, h.size_le⟩

lemma utterable_of_checkText (h : checkText location.toPath = .ok ()) : location.Utterable := by
  obtain ⟨hz, -, hs⟩ := checkText_eq_ok_iff.1 h
  exact ⟨hz, hs⟩

lemma walkText_toPath (h : location.Utterable) (names : List String) :
    fs.walkText followLast location.toPath names =
      match fs.walk followLast linkBudget [] names with
      | .ok arrival => .ok arrival
      | .error code => .error (.os code) := by
  rcases hwalk : fs.walk followLast linkBudget [] names with code | arrival <;>
    rw [walkText, checkText_toPath_of_utterable h, origin, if_pos location.isAbsolute_toPath, hwalk]

/-- A walk along a straight location ends there, at an entry or at a vacant place, or is stopped. -/
lemma walkText_straight (followLast : Bool) (hs : fs.Straight location)
    (hp : ∀ name ∈ location, PlainName name) :
    (∃ node, fs.get? location = some node ∧
        fs.walkText followLast location.toPath location = .ok (.entry location)) ∨
      (∃ parent name, location = parent ++ [name] ∧ fs.Vacant location ∧
        fs.walkText followLast location.toPath location = .ok (.vacant parent name)) ∨
      ∃ e, fs.walkText followLast location.toPath location = .error e := by
  by_cases hu : location.Utterable
  · rw [walkText_toPath hu]
    rcases advance_straight followLast [] hs hp fs.get?_nil with h | h | h
    · obtain ⟨node, hn, h⟩ := h
      exact .inl ⟨node, hn, by rw [walk_of_arrived h]; rfl⟩
    · obtain ⟨parent, name, he, h⟩ := h
      obtain rfl : location = parent ++ [name] := he
      have hopen := (advance_vacant h).1
      have hz : '\x00' ∉ name.toList := fun hz =>
        hu.zero_notMem (Location.zero_mem_toPath.2 ⟨name, by simp, hz⟩)
      have hv := hopen.vacant ((hp name (by simp)).valid hz hopen.descends.size_le)
      exact .inr (.inl ⟨parent, name, rfl, hv, by rw [walk_of_arrived h]⟩)
    · obtain ⟨code, h⟩ := h
      exact .inr (.inr ⟨.os code, by rw [linkBudget, walk, h]⟩)
  · refine .inr (.inr ?_)
    unfold walkText
    cases hc : checkText location.toPath with
    | ok u => exact absurd (utterable_of_checkText hc) hu
    | error e => exact ⟨e, rfl⟩

lemma walkText_straight_entry (hs : fs.Straight location) (hu : location.Utterable)
    (hn : fs.get? location = some node) :
    fs.walkText followLast location.toPath location = .ok (.entry location) := by
  have h : fs.advance followLast [] location = .arrived (.entry location) := by
    simpa [advance] using @advance_through fs _ _ [] followLast [] hs hn
  rw [walkText_toPath hu, walk_of_arrived h]

lemma walkText_straight_vacant (hs : fs.Straight location) (hu : location.Utterable)
    {parent : Location} {name : String} (he : location = parent ++ [name])
    (hv : fs.Vacant location) :
    fs.walkText followLast location.toPath location = .ok (.vacant parent name) := by
  subst he
  have hname : ValidName name := hv.2.1 name (by simp)
  have hd : fs.isDirectory parent := by simpa using hv.2.2.1
  have hdown : fs.Descends parent name := ⟨hd, hname.2.1, hname.2.2.1, hname.size_le⟩
  have h : fs.advance followLast [] (parent ++ [name]) = .arrived (.vacant parent name) := by
    have hp : fs.Straight ([] ++ parent) := hs.upper (List.prefix_append _ _)
    rw [advance_through _ _ hp hd, List.nil_append, hdown.advance_missing hv.get?, if_pos rfl]
  rw [walkText_toPath hu, walk_of_arrived h]

lemma makeDirectory_straight (hs : fs.Straight location) (hp : ∀ name ∈ location, PlainName name)
    (h : fs.makeDirectory location.toPath = .ok fs') :
    fs.Vacant location ∧ fs' = fs.insert location .directory := by
  rw [makeDirectory, Location.bareRoute_toPath hp] at h
  rcases walkText_straight false hs hp with ⟨-, -, hw⟩ | ⟨p, n, rfl, hv, hw⟩ | ⟨e, hw⟩
  · rw [hw] at h
    cases h
  · rw [hw] at h
    exact ⟨hv, by simpa using h.symm⟩
  · rw [hw] at h
    cases h

lemma leadsToDirectory_straight (hs : fs.Straight location) (hp : ∀ name ∈ location, PlainName name)
    (h : fs.leadsToDirectory location.toPath = true) : fs.isDirectory location := by
  rw [leadsToDirectory, decide_eq_true_eq, node?, locate, lookup, Location.route_toPath hp] at h
  rcases walkText_straight true hs hp with ⟨-, -, hw⟩ | ⟨p, n, -, -, hw⟩ | ⟨e, hw⟩
  · rw [hw] at h
    exact h
  · rw [hw] at h
    cases h
  · rw [hw] at h
    cases h

lemma openForWriting_toPath (hp : ∀ name ∈ location, PlainName name) (hne : location ≠ []) :
    fs.openForWriting location.toPath =
      match fs.walkText true location.toPath location with
      | .error e => .error e
      | .ok (.vacant parent name) =>
        .ok (parent ++ [name], fs.insert (parent ++ [name]) (.file .empty))
      | .ok (.entry place) =>
        if fs.isDirectory place then .error (.os .isDirectory)
        else .ok (place, fs.overwrite place .empty) := by
  have hlookup : fs.lookup true location.toPath = fs.walkText true location.toPath location := by
    rw [lookup, Location.route_toPath hp]
  rcases hwalk : fs.walkText true location.toPath location with e | place | ⟨parent, name⟩ <;>
    rw [openForWriting, Location.hasTrailingSlash_toPath hne hp, if_neg (by simp), hlookup, hwalk]

lemma utterable_of_openForWriting (hp : ∀ name ∈ location, PlainName name) (hne : location ≠ [])
    (h : fs.openForWriting location.toPath = .ok (place, fs')) : location.Utterable := by
  rw [openForWriting_toPath hp hne, walkText] at h
  cases hc : checkText location.toPath with
  | ok => exact utterable_of_checkText hc
  | error e =>
    rw [hc] at h
    cases h

/-- What can happen when a straight location is opened for writing. -/
lemma openForWriting_straight (hs : fs.Straight location)
    (hp : ∀ name ∈ location, PlainName name) (hne : location ≠ [])
    (h : fs.openForWriting location.toPath = .ok (place, fs')) :
    place = location ∧ (fs.Vacant location ∧ fs' = fs.insert location (.file .empty) ∨
      (∃ node, fs.get? location = some node ∧ node ≠ .directory) ∧
        fs' = fs.overwrite location .empty) := by
  rw [openForWriting_toPath hp hne] at h
  rcases walkText_straight true hs hp with ⟨node, hn, hw⟩ | ⟨p, n, rfl, hv, hw⟩ | hw
  · rw [hw] at h
    by_cases hd : fs.isDirectory location
    · simp [hd] at h
    · obtain ⟨rfl, rfl⟩ : location = place ∧ fs.overwrite location .empty = fs' := by
        simpa [hd] using h
      exact ⟨rfl, .inr ⟨⟨node, hn, fun he => hd (hn.trans (congrArg some he))⟩, rfl⟩⟩
  · rw [hw] at h
    obtain ⟨rfl, rfl⟩ : p ++ [n] = place ∧ fs.insert (p ++ [n]) (.file .empty) = fs' := by
      simpa using h
    exact ⟨rfl, .inl ⟨hv, rfl⟩⟩
  · obtain ⟨e, hw⟩ := hw
    rw [hw] at h
    cases h

/-- A file can be written where there is one or room for one. -/
lemma openForWriting_granted (hs : fs.Straight location) (hu : location.Utterable)
    (hp : ∀ name ∈ location, PlainName name) (hne : location ≠ [])
    (h : fs.Vacant location ∨ ∃ old, fs.get? location = some (.file old)) :
    ∃ place fs', fs.openForWriting location.toPath = .ok (place, fs') := by
  rw [openForWriting_toPath hp hne]
  rcases h with hv | ⟨old, hf⟩
  · obtain ⟨parent, name, he⟩ : ∃ parent name, location = parent ++ [name] :=
      ⟨_, _, (List.dropLast_concat_getLast hne).symm⟩
    rw [walkText_straight_vacant hs hu he hv]
    exact ⟨_, _, rfl⟩
  · have hnot : ¬ fs.isDirectory location := fun hd => by
      have hd' : fs.get? location = some .directory := hd
      rw [hf] at hd'
      cases hd'
    rw [walkText_straight_entry hs hu hf]
    dsimp only
    rw [if_neg hnot]
    exact ⟨_, _, rfl⟩

/-- A straight location is its own resolved form. -/
lemma expandWith_straight {follow : Location → Location → List String → Resolution}
    (here : Location) {names : List String} (hs : fs.Straight (here ++ names))
    (hp : ∀ name ∈ names, PlainName name) :
    fs.expandWith follow here names = .settled (here ++ names) := by
  induction names generalizing here with
  | nil => rw [expandWith, List.append_nil]
  | cons name names ih =>
    have happ : here ++ name :: names = (here ++ [name]) ++ names := by simp
    have hn := hp name (by simp)
    have hl : ∀ target, fs.get? (here ++ [name]) ≠ some (.link target) := fun target =>
      hs _ target ⟨names, happ.symm⟩
    rw [expandWith, if_neg (by simp [hn.1, hn.2.1]), if_neg hn.2.2.1]
    split
    · rename_i target hl'
      exact absurd hl' (hl target)
    · rw [happ]
      exact ih _ (happ ▸ hs) fun other ho => hp other (List.mem_cons_of_mem _ ho)

lemma resolve_straight (hs : fs.Straight location) (hp : ∀ name ∈ location, PlainName name)
    (hne : location ≠ []) (hz : '\x00' ∉ location.toPath.toList) :
    fs.resolve location.toPath = .ok location := by
  have hsettled : fs.resolution location.toPath = .settled location := by
    rw [resolution, targetStart, if_pos location.isAbsolute_toPath,
      Location.relativeSegments_toPath hne hp]
    cases fs.linkCount <;> exact expandWith_straight [] hs hp
  rw [resolve, if_neg hz, hsettled]

end FileSystem

end SourceAtlas
