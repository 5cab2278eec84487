import SourceAtlas.Number.Binary64

/-!
# The file system as data

A file system is a finite table from locations to entries.  A location is the list of names from the
root directory down, so "below" is "extends the list"; the root itself is a directory that needs no
entry.

The table keeps two promises, which are part of its type: a location occurs once, and every entry
lies in a directory under a name that a file system accepts.  Hence an entry is found by its
location alone, and nothing hangs in the air.

## What the operations do to the view

`get?` is the view through which a file system is observed.  Four operations change it:

* `insert` adds an entry at a vacant location of an existing directory,
* `overwrite` replaces the content of a regular file,
* `eraseTree` removes an entry with everything below it,
* `eraseBelow` empties a directory.

Each has one lemma that says what `get?` yields afterwards.

Modification times are kept apart from the entries, since most statements about what a program
leaves behind do not concern them: `modified` reads one, and a change to a directory or a file sets
it to the present.
-/

namespace SourceAtlas

/-- The names from the root directory down to an entry. -/
abbrev Location := List String

/-- Contents are compared by the instance that byte arrays come with. -/
instance (priority := high) contentDecidableEq : DecidableEq ByteArray := ByteArray.instDecidableEq

/-- What a location can hold. -/
inductive Node
  | directory
  | file (content : ByteArray)
  | link (target : String)
  | pipe
deriving DecidableEq

/-- The greatest size of a name, in bytes of its UTF-8 form. -/
def maxNameBytes : Nat := 255

/-- A name that a directory can hold. -/
def ValidName (name : String) : Prop :=
  name ≠ "" ∧ name ≠ "." ∧ name ≠ ".." ∧ '/' ∉ name.toList ∧ '\x00' ∉ name.toList ∧
    name.utf8ByteSize ≤ maxNameBytes

instance (name : String) : Decidable (ValidName name) := by
  unfold ValidName
  infer_instance

/-- Every entry of a table lies, under a valid name, in the root or in a directory of the table. -/
def Rooted (entries : List (Location × Node)) : Prop :=
  ∀ entry ∈ entries, ∃ parent name, entry.1 = parent ++ [name] ∧ ValidName name ∧
    (parent = [] ∨ (parent, Node.directory) ∈ entries)

/-- A file system, with the directory in which relative paths start and the time at which changes
are made. -/
structure FileSystem where
  entries : List (Location × Node)
  stamps : List (Location × Binary64)
  workingDirectory : Location
  present : Binary64
  distinct : (entries.map Prod.fst).Nodup
  rooted : Rooted entries

namespace FileSystem

/-- A file system that holds the root directory only. -/
def empty (workingDirectory : Location) (present : Binary64) : FileSystem where
  entries := []
  stamps := []
  workingDirectory := workingDirectory
  present := present
  distinct := by simp
  rooted := by simp [Rooted]

/-! ## The view -/

/-- The entry at a location. -/
def get? (fs : FileSystem) (location : Location) : Option Node :=
  if location = [] then some .directory else fs.entries.lookup location

/-- Whether a location holds a directory. -/
def isDirectory (fs : FileSystem) (location : Location) : Prop :=
  fs.get? location = some .directory

instance (fs : FileSystem) (location : Location) : Decidable (fs.isDirectory location) := by
  unfold isDirectory
  infer_instance

/-- The names of the entries of a directory. -/
def names (fs : FileSystem) (location : Location) : List String :=
  (fs.entries.filter fun entry => entry.1.dropLast == location).filterMap fun entry =>
    entry.1.getLast?

/-- The time at which an entry was last modified. -/
def modified (fs : FileSystem) (location : Location) : Binary64 :=
  (fs.stamps.lookup location).getD fs.present

/-- The entries below a location, with the names that lead to them from there. -/
def below (fs : FileSystem) (location : Location) : List (Location × Node) :=
  fs.entries.filterMap fun entry =>
    if location.isPrefixOf entry.1 && location.length < entry.1.length then
      some (entry.1.drop location.length, entry.2)
    else none

theorem lookup_cons_eq_ite {α : Type} {entry : Location × α} {rest : List (Location × α)}
    {location : Location} :
    (entry :: rest).lookup location =
      if location = entry.1 then some entry.2 else rest.lookup location := by
  rw [List.lookup_cons]
  by_cases h : location = entry.1
  · rw [beq_iff_eq.2 h, if_pos h]
  · rw [beq_eq_false_iff_ne.2 h, if_neg h]

theorem lookup_eq_none_iff {entries : List (Location × Node)} {location : Location} :
    entries.lookup location = none ↔ location ∉ entries.map Prod.fst := by
  induction entries with
  | nil => simp
  | cons entry rest ih =>
    rw [lookup_cons_eq_ite]
    by_cases h : location = entry.1
    · simp [h]
    · rw [if_neg h, ih, List.map_cons, List.mem_cons, not_or]
      simp only [h, not_false_eq_true, true_and]

theorem lookup_eq_some_iff {entries : List (Location × Node)}
    (distinct : (entries.map Prod.fst).Nodup) {location : Location} {node : Node} :
    entries.lookup location = some node ↔ (location, node) ∈ entries := by
  induction entries with
  | nil => simp
  | cons entry rest ih =>
    obtain ⟨here, there⟩ := List.nodup_cons.1 distinct
    rw [lookup_cons_eq_ite]
    by_cases h : location = entry.1
    · subst h
      have : ∀ other, (entry.1, other) ∉ rest := fun other hm =>
        here (List.mem_map.2 ⟨_, hm, rfl⟩)
      simp [Prod.ext_iff, this, eq_comm]
    · simp [h, ih there, Prod.ext_iff]

theorem get?_eq_some_iff {fs : FileSystem} {location : Location} {node : Node}
    (h : location ≠ []) : fs.get? location = some node ↔ (location, node) ∈ fs.entries := by
  rw [get?, if_neg h, lookup_eq_some_iff fs.distinct]

/-- Whatever exists below the root lies in a directory, under a valid name. -/
theorem parent_of_get? {fs : FileSystem} {parent : Location} {name : String} {node : Node}
    (h : fs.get? (parent ++ [name]) = some node) : fs.isDirectory parent ∧ ValidName name := by
  rw [get?_eq_some_iff (by simp)] at h
  obtain ⟨p, n, he, hn, hp⟩ := fs.rooted _ h
  obtain ⟨rfl, rfl⟩ := List.append_singleton_inj.1 he
  refine ⟨?_, hn⟩
  rcases hp with rfl | hp
  · simp [isDirectory, get?]
  · by_cases hnil : parent = []
    · simp [isDirectory, get?, hnil]
    · exact (get?_eq_some_iff hnil).2 hp

/-! ## Adding an entry -/

/-- A location where an entry can be added: vacant, in a directory, under a valid name. -/
def Vacant (fs : FileSystem) (location : Location) : Prop :=
  location ≠ [] ∧ (∀ name, location.getLast? = some name → ValidName name) ∧
    fs.isDirectory location.dropLast ∧ fs.get? location = none

instance (fs : FileSystem) (location : Location) : Decidable (fs.Vacant location) :=
  if h : location = [] then isFalse fun v => v.1 h
  else
    match hl : location.getLast? with
    | none => isFalse fun _ => h (List.getLast?_eq_none_iff.1 hl)
    | some name =>
      if hv : ValidName name ∧ fs.isDirectory location.dropLast ∧ fs.get? location = none then
        isTrue ⟨h, fun other ho => by rw [hl] at ho; cases ho; exact hv.1, hv.2⟩
      else isFalse fun v => hv ⟨v.2.1 name hl, v.2.2⟩

theorem rooted_append {fs : FileSystem} {location : Location} {node : Node}
    (h : fs.Vacant location) : Rooted (fs.entries ++ [(location, node)]) := by
  intro entry he
  rcases List.mem_append.1 he with he | he
  · obtain ⟨parent, name, h1, h2, h3⟩ := fs.rooted entry he
    exact ⟨parent, name, h1, h2, h3.imp_right fun hm => List.mem_append_left _ hm⟩
  · obtain rfl := List.mem_singleton.1 he
    obtain ⟨hne, hname, hdir, -⟩ := h
    refine ⟨location.dropLast, location.getLast hne, (List.dropLast_concat_getLast hne).symm,
      hname _ (List.getLast?_eq_some_getLast hne), ?_⟩
    by_cases hp : location.dropLast = []
    · exact .inl hp
    · exact .inr (List.mem_append_left _ ((get?_eq_some_iff hp).1 hdir))

/-- Add an entry at a vacant location, as a change of its directory at the present time. -/
def insert (fs : FileSystem) (location : Location) (node : Node) : FileSystem :=
  if h : fs.Vacant location then
    { fs with
      entries := fs.entries ++ [(location, node)]
      stamps := fs.stamps.filter fun stamp =>
        stamp.1 ≠ location ∧ stamp.1 ≠ location.dropLast
      distinct := by
        have := h.2.2.2
        rw [get?, if_neg h.1, lookup_eq_none_iff] at this
        rw [List.map_append, List.nodup_append]
        refine ⟨fs.distinct, by simp, fun a ha b hb e => ?_⟩
        obtain rfl : b = location := by simpa using hb
        exact this (e ▸ ha)
      rooted := rooted_append h }
  else fs

theorem get?_insert {fs : FileSystem} {location : Location} {node : Node}
    (h : fs.Vacant location) (other : Location) :
    (fs.insert location node).get? other =
      if other = location then some node else fs.get? other := by
  rw [insert, dif_pos h]
  by_cases ho : other = []
  · subst ho
    rw [if_neg (Ne.symm h.1)]
    simp [get?]
  · simp only [get?, if_neg ho, List.lookup_append]
    by_cases he : other = location
    · subst he
      have := h.2.2.2
      rw [get?, if_neg ho] at this
      simp [this]
    · simp [he, lookup_cons_eq_ite]

/-! ## Replacing the content of a file -/

/-- An entry whose content, if it is the regular file at the location, is replaced. -/
def withContent (location : Location) (content : ByteArray) (entry : Location × Node) :
    Location × Node :=
  match entry.2 with
  | .file _ => if entry.1 = location then (entry.1, .file content) else entry
  | _ => entry

theorem withContent_fst (location : Location) (content : ByteArray) (entry : Location × Node) :
    (withContent location content entry).1 = entry.1 := by
  unfold withContent
  split
  · split <;> rfl
  · rfl

theorem withContent_directory (location : Location) (content : ByteArray) (other : Location) :
    withContent location content (other, .directory) = (other, .directory) := rfl

/-- Replace the content of the regular file at a location. -/
def overwrite (fs : FileSystem) (location : Location) (content : ByteArray) : FileSystem :=
  { fs with
    entries := fs.entries.map (withContent location content)
    stamps := fs.stamps.filter (·.1 ≠ location)
    distinct := by
      have : Prod.fst ∘ withContent location content = Prod.fst :=
        funext fun entry => withContent_fst location content entry
      simpa [List.map_map, this] using fs.distinct
    rooted := by
      intro entry he
      obtain ⟨old, ho, rfl⟩ := List.mem_map.1 he
      obtain ⟨parent, name, h1, h2, h3⟩ := fs.rooted old ho
      refine ⟨parent, name, by rw [withContent_fst, h1], h2, h3.imp_right fun hm => ?_⟩
      exact List.mem_map.2 ⟨_, hm, withContent_directory location content parent⟩ }

theorem lookup_map_withContent {entries : List (Location × Node)} {location : Location}
    {content : ByteArray} (other : Location) :
    (entries.map (withContent location content)).lookup other =
      (entries.lookup other).map fun node => (withContent location content (other, node)).2 := by
  induction entries with
  | nil => rfl
  | cons entry rest ih =>
    rw [List.map_cons, lookup_cons_eq_ite, lookup_cons_eq_ite, withContent_fst]
    by_cases h : other = entry.1
    · simp [h]
    · simp only [if_neg h, ih]

theorem get?_overwrite {fs : FileSystem} {location : Location} {content : ByteArray}
    (other : Location) :
    (fs.overwrite location content).get? other =
      (fs.get? other).map fun node => (withContent location content (other, node)).2 := by
  by_cases ho : other = []
  · simp [get?, ho, withContent]
  · simp only [get?, if_neg ho, overwrite, lookup_map_withContent]

/-! ## Removing entries -/

/-- Keep the entries that a predicate on locations admits, as a change of the directory that is
touched, if any.  The predicate must admit the directory of what it admits. -/
def keep (fs : FileSystem) (touched : Option Location) (p : Location → Bool)
    (closed : ∀ parent name, p (parent ++ [name]) = true → parent = [] ∨ p parent = true) :
    FileSystem :=
  { fs with
    entries := fs.entries.filter fun entry => p entry.1
    stamps := fs.stamps.filter fun stamp => p stamp.1 && some stamp.1 ≠ touched
    distinct := (List.filter_sublist.map Prod.fst).nodup fs.distinct
    rooted := by
      intro entry he
      obtain ⟨hm, hp⟩ := List.mem_filter.1 he
      obtain ⟨parent, name, h1, h2, h3⟩ := fs.rooted entry hm
      refine ⟨parent, name, h1, h2, ?_⟩
      rcases h3 with h3 | h3
      · exact .inl h3
      · exact (closed parent name (h1 ▸ hp)).imp_right fun h => List.mem_filter.2 ⟨h3, h⟩ }

theorem lookup_filter {α : Type} {entries : List (Location × α)} {p : Location → Bool}
    (other : Location) :
    (entries.filter fun entry => p entry.1).lookup other =
      if p other then entries.lookup other else none := by
  induction entries with
  | nil => simp
  | cons entry rest ih =>
    rw [List.filter_cons]
    by_cases h : other = entry.1
    · subst h
      by_cases hp : p entry.1
      · simp [hp, lookup_cons_eq_ite]
      · simp [hp, ih]
    · by_cases hp : p entry.1
      · rw [if_pos hp, lookup_cons_eq_ite, lookup_cons_eq_ite, if_neg h, if_neg h, ih]
      · rw [if_neg hp, lookup_cons_eq_ite, if_neg h, ih]

theorem get?_keep {fs : FileSystem} {touched : Option Location} {p : Location → Bool} {closed}
    {other : Location} (h : other ≠ []) :
    (fs.keep touched p closed).get? other = if p other then fs.get? other else none := by
  simp only [get?, if_neg h, keep, lookup_filter]

/-- Remove the entry at a location and everything below it. -/
def eraseTree (fs : FileSystem) (location : Location) : FileSystem :=
  fs.keep (some location.dropLast) (fun other => decide (¬ location <+: other)) fun _ _ h =>
    .inr (decide_eq_true fun hp => of_decide_eq_true h (hp.trans (List.prefix_append _ _)))

theorem get?_eraseTree {fs : FileSystem} {location other : Location} (h : other ≠ []) :
    (fs.eraseTree location).get? other = if location <+: other then none else fs.get? other := by
  rw [eraseTree, get?_keep h]
  by_cases hp : location <+: other
  · rw [if_neg (by simpa using hp), if_pos hp]
  · rw [if_pos (by simpa using hp), if_neg hp]

/-- Remove everything below a location. -/
def eraseBelow (fs : FileSystem) (location : Location) : FileSystem :=
  fs.keep (if fs.names location = [] then none else some location)
    (fun other => decide (¬ (location <+: other ∧ location ≠ other))) fun _ _ h =>
    .inr (decide_eq_true fun hp => of_decide_eq_true h
      ⟨hp.1.trans (List.prefix_append _ _), fun e => by
        have := hp.1.length_le
        rw [e, List.length_append, List.length_singleton] at this
        omega⟩)

theorem get?_eraseBelow {fs : FileSystem} {location other : Location} (h : other ≠ []) :
    (fs.eraseBelow location).get? other =
      if location <+: other ∧ location ≠ other then none else fs.get? other := by
  rw [eraseBelow, get?_keep h]
  by_cases hp : location <+: other ∧ location ≠ other
  · rw [if_neg (by simpa using hp), if_pos hp]
  · rw [if_pos (decide_eq_true hp), if_neg hp]

/-! ## Modification times -/

/-- Record when an entry was last modified. -/
def stamp (fs : FileSystem) (location : Location) (time : Binary64) : FileSystem :=
  { fs with stamps := (location, time) :: fs.stamps.filter (·.1 ≠ location) }

end FileSystem

end SourceAtlas
