import SourceAtlas.Extraction.Basic
import SourceAtlas.Proofs.Files.Directories
import SourceAtlas.Proofs.Path.Entry

/-!
# Extracting one entry

What `Extraction.extractEntry` does to a file system in which the extraction root is a directory
that was made for the purpose.

`Holds` is the invariant of an extraction: apart from the extraction root everything is as it was
when the root had just been made, and below the root there are only directories, and files that a
ledger accounts for.  In particular no link lies there, so the place of an entry is its name below
the root, whatever links lie on the way to the root.

`EntryRun` lists the outcomes of an entry: it is refused before anything is written, some
directories are made for it and then it is blocked, or its content is written as far as the limits
admit it.  Every run has one of these outcomes (`extractEntry_run`), and where nothing is in its
way, the content of the entry decides (`on_extractEntry_clear`).
-/

namespace SourceAtlas.Extraction

open FileSystem

/-- A directory that has just been made, under the path text by which it was asked for. -/
structure Base (base : FileSystem) (root : String) (top : Location) : Prop where
  arrives : base.ArrivesAt root top
  isDirectory : base.isDirectory top
  fresh : ∀ rest, rest ≠ [] → base.get? (top ++ rest) = none

/-- The state of an extraction.  The ledger lists what has been written, latest first, by the names
below the extraction root. -/
structure Holds (base : FileSystem) (top : Location) (ledger : List (Location × ByteArray))
    (fs : FileSystem) : Prop where
  workingDirectory : fs.workingDirectory = base.workingDirectory
  isDirectory : fs.isDirectory top
  outside : ∀ location, ¬ top <+: location → fs.get? location = base.get? location
  inside : ∀ rest node, fs.get? (top ++ rest) = some node →
    node = .directory ∨ ∃ content, node = .file content ∧ ledger.lookup rest = some content

variable {config : Config} {base fs fs₁ fs₂ : FileSystem} {root : String}
  {top bottom place : Location} {names : List String} {ledger : List (Location × ByteArray)}
  {content : ByteArray} {tally : Tally} {entry : ArchiveEntry}

namespace Holds

lemma start (hb : Base base root top) : Holds base top [] base := by
  refine ⟨rfl, hb.isDirectory, fun _ _ => rfl, fun rest node hn => ?_⟩
  by_cases hr : rest = []
  · have hd : base.get? top = some .directory := hb.isDirectory
    rw [hr, List.append_nil, hd] at hn
    exact .inl (Option.some.inj hn).symm
  · rw [hb.fresh rest hr] at hn
    cases hn

/-- An extraction hides nothing that was there at its start. -/
lemma grows (h : Holds base top ledger fs) (hb : Base base root top) : base.Grows fs := by
  constructor
  · exact h.workingDirectory
  · intro location node hn
    by_cases hp : top <+: location
    · obtain ⟨rest, rfl⟩ := hp
      have hr : rest = [] := by
        by_contra hr
        rw [hb.fresh rest hr] at hn
        cases hn
      have hd : base.get? top = some .directory := hb.isDirectory
      rw [hr, List.append_nil, hd] at hn
      obtain rfl := Option.some.inj hn
      exact ⟨.directory, by rw [hr, List.append_nil]; exact h.isDirectory, rfl⟩
    · exact ⟨node, by rw [h.outside location hp, hn], rfl⟩

/-- No link lies on the way to a place below the extraction root. -/
lemma straight (h : Holds base top ledger fs) (names : List String) :
    fs.Straight (top ++ names) := by
  intro above target hp hl
  rcases List.prefix_or_prefix_of_prefix hp (List.prefix_append top names) with ha | ⟨rest, rfl⟩
  · have hd : fs.get? above = some .directory := isDirectory_above h.isDirectory ha
    rw [hd] at hl
    cases hl
  · rcases h.inside rest _ hl with he | ⟨content, he, -⟩
    · cases he
    · cases he

lemma resolve_root (h : Holds base top ledger fs) (hb : Base base root top) :
    fs.resolve root = .ok top := by
  have hd : fs.get? top = some .directory := h.isDirectory
  exact resolve_of_walkText (hb.arrives.of_grows (h.grows hb)) fun target hl => by
    rw [hd] at hl
    cases hl

lemma plain (h : Holds base top ledger fs) (hn : ∀ name ∈ names, PlainName name) :
    ∀ name ∈ top ++ names, PlainName name := by
  intro name hmem
  rcases List.mem_append.1 hmem with ht | ht
  · exact (validName_of_get? h.isDirectory ht).plain
  · exact hn name ht

/-- There are only directories and files below the extraction root. -/
lemma sort (h : Holds base top ledger fs) (names : List String) :
    ∀ node, fs.get? (top ++ names) = some node →
      node = .directory ∨ ∃ content, node = .file content :=
  fun node hn => (h.inside names node hn).imp_right fun ⟨content, he, _⟩ => ⟨content, he⟩

/-- Directories on the way to an entry may be added. -/
lemma filled (h : Holds base top ledger fs) (hf : fs.FilledTo fs₁ bottom)
    (hb : bottom <+: top ++ names) : Holds base top ledger fs₁ := by
  refine ⟨hf.workingDirectory.trans h.workingDirectory, hf.grows.isDirectory h.isDirectory,
    fun location hp => ?_, fun rest node hn => ?_⟩
  · by_cases ha : location <+: bottom
    · rcases List.prefix_or_prefix_of_prefix (ha.trans hb) (List.prefix_append top names) with
        hl | hl
      · have hd : fs.get? location = some .directory := isDirectory_above h.isDirectory hl
        rw [hf.get?_of_some hd, ← h.outside location hp, hd]
      · exact absurd hl hp
    · rw [hf.get?_of_not_prefix ha, h.outside location hp]
  · rw [hf.get?] at hn
    split at hn
    · exact .inl (Option.some.inj hn).symm
    · exact h.inside rest node hn

end Holds

/-! ## Putting a file -/

/-- A file with a content has been put at a place; nothing else has changed. -/
structure Put (fs fs' : FileSystem) (place : Location) (content : ByteArray) : Prop where
  workingDirectory : fs'.workingDirectory = fs.workingDirectory
  get? : ∀ location, fs'.get? location =
    if location = place then some (.file content) else fs.get? location

lemma lookup_ledger (rest : Location) :
    ((names, content) :: ledger).lookup rest =
      if rest = names then some content else ledger.lookup rest := by
  rw [List.lookup_cons]
  by_cases he : rest = names
  · rw [beq_iff_eq.2 he, if_pos he]
  · rw [beq_eq_false_iff_ne.2 he, if_neg he]

lemma Holds.put (h : Holds base top ledger fs) (hp : Put fs fs₁ (top ++ names) content)
    (hne : names ≠ []) : Holds base top ((names, content) :: ledger) fs₁ := by
  refine ⟨hp.workingDirectory.trans h.workingDirectory, ?_, fun location hl => ?_,
    fun rest node hn => ?_⟩
  · have hd : fs.get? top = some .directory := h.isDirectory
    show fs₁.get? top = some .directory
    rw [hp.get?, if_neg (by simpa using hne), hd]
  · rw [hp.get?, if_neg, h.outside location hl]
    rintro rfl
    exact hl (List.prefix_append _ _)
  · rw [hp.get?] at hn
    rw [lookup_ledger]
    by_cases he : rest = names
    · rw [if_pos (by rw [he])] at hn
      rw [if_pos he]
      exact .inr ⟨content, (Option.some.inj hn).symm, rfl⟩
    · rw [if_neg fun hc => he (List.append_cancel_left hc)] at hn
      rw [if_neg he]
      exact h.inside rest node hn

/-- Opening a file for writing and giving it a content, where there is nothing but files and
directories. -/
lemma put_of_open {fs' : FileSystem} (content : ByteArray) (hs : fs.Straight place)
    (hp : ∀ name ∈ place, PlainName name) (hne : place ≠ [])
    (hsort : ∀ node, fs.get? place = some node →
      node = .directory ∨ ∃ content, node = .file content)
    (h : fs.openForWriting place.toPath = .ok (bottom, fs')) :
    bottom = place ∧ Put fs (fs'.overwrite place content) place content ∧
      (fs.get? place = none ∨ ∃ old, fs.get? place = some (.file old)) := by
  obtain ⟨rfl, ⟨hv, rfl⟩ | ⟨⟨node, hn, hd⟩, rfl⟩⟩ := openForWriting_straight hs hp hne h
  · have hself : (fs.insert bottom (.file .empty)).get? bottom = some (.file .empty) := by
      rw [get?_insert hv, if_pos rfl]
    refine ⟨rfl, ⟨(insert_grows hv).workingDirectory, fun location => ?_⟩, .inl hv.get?⟩
    by_cases he : location = bottom
    · rw [if_pos he, he, get?_overwrite_self hself]
    · rw [if_neg he, get?_overwrite_of_ne he, get?_insert hv, if_neg he]
  · rcases hsort node hn with rfl | ⟨old, rfl⟩
    · exact absurd rfl hd
    refine ⟨rfl, ⟨rfl, fun location => ?_⟩, .inr ⟨old, hn⟩⟩
    by_cases he : location = bottom
    · rw [if_pos he, he, get?_overwrite_self (get?_overwrite_self hn)]
    · rw [if_neg he, get?_overwrite_of_ne he, get?_overwrite_of_ne he]

/-! ## The outcomes of an entry -/

/-- A result, unless something has stopped the run. -/
def unlessStopped {α : Type} (stop : Option Failure) (result : α) : Except Failure α :=
  match stop with
  | some failure => .error failure
  | none => .ok result

/-- How the run on an entry can end. -/
inductive EntryRun (config : Config) (top : Location) (tally : Tally) (entry : ArchiveEntry)
    (fs : FileSystem) : Except Failure Tally × FileSystem → Prop
  /-- It is refused, and nothing is written. -/
  | refused (failure : Failure) : EntryRun config top tally entry fs (.error failure, fs)
  /-- Directories are made for it, but not the file. -/
  | blocked {names : List String} {bottom : Location} {fs₁ : FileSystem} (failure : Failure)
      (hb : bottom <+: top ++ names) (hf : fs.FilledTo fs₁ bottom) :
      EntryRun config top tally entry fs (.error failure, fs₁)
  /-- Its file is written, as far as its content is admitted. -/
  | written {declared : Int} {names : List String} {stream : Stream} {content : ByteArray}
      {stop : Option Failure} {fs₁ fs₂ : FileSystem}
      (hd : checkDeclared config tally entry = .ok declared)
      (hr : EntryPath.ofRaw entry.path = .ok names)
      (hc : entry.content () = .ok stream)
      (ht : takeIn config entry.path tally.written stream.failure .empty stream.chunks =
        (content, stop))
      (hf : fs.FilledTo fs₁ (top ++ names).dropLast)
      (ho : fs.get? (top ++ names) = none ∨ ∃ old, fs.get? (top ++ names) = some (.file old))
      (hp : Put fs₁ fs₂ (top ++ names) content)
      (hu : Location.Utterable (top ++ names)) :
      EntryRun config top tally entry fs
        (unlessStopped stop ⟨tally.files + 1, declared, tally.written + content.size⟩, fs₂)

lemma on_resolveDestination (h : Holds base top ledger fs) (hb : Base base root top)
    (hr : EntryPath.ofRaw entry.path = .ok names) :
    (resolveDestination root entry.path).on fs =
      if '\x00' ∈ (Location.toPath (top ++ names)).toList then (.error (.file .nullByte), fs)
      else (.ok (top ++ names), fs) := by
  obtain ⟨hne, hplain⟩ := EntryPath.ofRaw_plain hr
  have hne' : top ++ names ≠ [] := by simp [hne]
  have hroot : (Action.resolve root).on fs = (.ok top, fs) := by
    rw [Action.on_resolve, h.resolve_root hb]
  rw [resolveDestination, hr]
  dsimp only
  rw [Action.on_bind_ok hroot, Action.on_bind, Action.on_resolve]
  by_cases hz : '\x00' ∈ (Location.toPath (top ++ names)).toList
  · rw [if_pos hz, resolve, if_pos hz]
  · have hwithin :
        ((PurePath.mk 1 top).isWithin ⟨1, top ++ names⟩ && (top ++ names != top)) = true := by
      simp [PurePath.isWithin_iff, hne]
    rw [if_neg hz, resolve_straight (h.straight names) (h.plain hplain) hne' hz]
    simp [hwithin]

/-- How the content of an entry is written. -/
lemma on_writeEntry {stream : Stream} {stop : Option Failure} {before : Int} (fs : FileSystem)
    (hc : entry.content () = .ok stream)
    (ht : takeIn config entry.path before stream.failure .empty stream.chunks = (content, stop)) :
    (writeEntry config entry place before).on fs =
      match fs.openForWriting place.toPath with
      | .error e => (.error (.file e), fs)
      | .ok (there, fs') =>
        (unlessStopped stop (content.size : Int), fs'.overwrite there content) := by
  rw [writeEntry, hc]
  dsimp only
  rw [Action.on_bind, Action.on_changeAt]
  rcases fs.openForWriting place.toPath with e | ⟨there, fs'⟩
  · rfl
  dsimp only
  rw [Action.on_bind, Action.on_modify]
  dsimp only
  rw [ht]
  cases stop <;> rfl

/-- What lies above a location lies at its directory or above that. -/
lemma prefix_dropLast_iff {above location : Location} (h : location ≠ []) :
    above <+: location.dropLast ↔ above <+: location ∧ above ≠ location := by
  constructor
  · intro hp
    refine ⟨hp.trans (List.dropLast_prefix _), ?_⟩
    rintro rfl
    have hlen := hp.length_le
    have hpos := List.length_pos_of_ne_nil h
    rw [List.length_dropLast] at hlen
    omega
  · rintro ⟨⟨rest, rfl⟩, hne⟩
    have hrest : rest ≠ [] := by
      rintro rfl
      exact hne (List.append_nil above).symm
    rw [List.dropLast_append_of_ne_nil hrest]
    exact List.prefix_append _ _

lemma not_prefix_dropLast {location : Location} (h : location ≠ []) :
    ¬ location <+: location.dropLast :=
  fun hp => ((prefix_dropLast_iff h).1 hp).2 rfl

/-- Past the checks, directories are made for an entry and its content is written. -/
lemma on_extractEntry (h : Holds base top ledger fs) (hb : Base base root top) {declared : Int}
    (hd : checkDeclared config tally entry = .ok declared)
    (hr : EntryPath.ofRaw entry.path = .ok names)
    (hz : '\x00' ∉ (Location.toPath (top ++ names)).toList) :
    (extractEntry config root tally entry).on fs =
      match (Action.makePath true ⟨1, (top ++ names).dropLast⟩).on fs with
      | (.error failure, fs₁) => (.error failure, fs₁)
      | (.ok (), fs₁) =>
        match (writeEntry config entry (top ++ names) tally.written).on fs₁ with
        | (.error failure, fs₂) => (.error failure, fs₂)
        | (.ok size, fs₂) => (.ok ⟨tally.files + 1, declared, tally.written + size⟩, fs₂) := by
  rw [extractEntry, hd]
  dsimp only
  rw [Action.on_bind, on_resolveDestination h hb hr, if_neg hz]
  dsimp only
  rw [Action.on_bind]
  rcases (Action.makePath true ⟨1, (top ++ names).dropLast⟩).on fs with ⟨failure | ⟨⟩, fs₁⟩
  · rfl
  dsimp only
  rw [Action.on_bind]
  rcases (writeEntry config entry (top ++ names) tally.written).on fs₁ with ⟨failure | size, fs₂⟩
  · rfl
  · rfl

/-- A content is not written, or it is put at its place as far as it is admitted. -/
lemma writeEntry_cases (config : Config) (entry : ArchiveEntry) (before : Int)
    (hs : fs.Straight place) (hp : ∀ name ∈ place, PlainName name) (hne : place ≠ [])
    (hsort : ∀ node, fs.get? place = some node →
      node = .directory ∨ ∃ content, node = .file content) :
    (∃ failure, (writeEntry config entry place before).on fs = (.error failure, fs) ∧
        ((∃ e, failure = .file e) ∨ entry.content () = .error failure)) ∨
      ∃ stream content stop fs', entry.content () = .ok stream ∧
        takeIn config entry.path before stream.failure .empty stream.chunks = (content, stop) ∧
        Put fs fs' place content ∧ place.Utterable ∧
        (fs.get? place = none ∨ ∃ old, fs.get? place = some (.file old)) ∧
        (writeEntry config entry place before).on fs =
          (unlessStopped stop (content.size : Int), fs') := by
  cases hc : entry.content () with
  | error failure => exact .inl ⟨failure, by rw [writeEntry, hc]; rfl, .inr rfl⟩
  | ok stream =>
    obtain ⟨content, stop, ht⟩ : ∃ content stop,
        takeIn config entry.path before stream.failure .empty stream.chunks = (content, stop) :=
      ⟨_, _, rfl⟩
    have hrun : (writeEntry config entry place before).on fs = _ := on_writeEntry fs hc ht
    cases ho : fs.openForWriting place.toPath with
    | error e =>
      rw [ho] at hrun
      exact .inl ⟨.file e, hrun, .inl ⟨e, rfl⟩⟩
    | ok opened =>
      obtain ⟨there, fs'⟩ := opened
      have hu := utterable_of_openForWriting hp hne ho
      obtain ⟨rfl, hput, hfree⟩ := put_of_open content hs hp hne hsort ho
      rw [ho] at hrun
      exact .inr ⟨stream, content, stop, _, rfl, ht, hput, hu, hfree, hrun⟩

/-- Once the directories for an entry are there, it is blocked or written. -/
lemma EntryRun.of_writeEntry (h : Holds base top ledger fs) {declared : Int}
    (hd : checkDeclared config tally entry = .ok declared)
    (hr : EntryPath.ofRaw entry.path = .ok names)
    (hf : fs.FilledTo fs₁ (top ++ names).dropLast) :
    EntryRun config top tally entry fs
      (match (writeEntry config entry (top ++ names) tally.written).on fs₁ with
        | (.error failure, fs₂) => (.error failure, fs₂)
        | (.ok size, fs₂) => (.ok ⟨tally.files + 1, declared, tally.written + size⟩, fs₂)) := by
  obtain ⟨hne, hplain⟩ := EntryPath.ofRaw_plain hr
  have hne' : top ++ names ≠ [] := by simp [hne]
  have hbelow : (top ++ names).dropLast <+: top ++ names := List.dropLast_prefix _
  have h₁ : Holds base top ledger fs₁ := h.filled hf hbelow
  have hsame : fs₁.get? (top ++ names) = fs.get? (top ++ names) :=
    hf.get?_of_not_prefix (not_prefix_dropLast hne')
  rcases writeEntry_cases config entry tally.written (h₁.straight names) (h₁.plain hplain) hne'
      (h₁.sort names) with
    ⟨failure, hrun, -⟩ | ⟨stream, content, stop, fs₂, hc, ht, hput, hu, hfree, hrun⟩
  · rw [hrun]
    exact .blocked failure hbelow hf
  · rw [hsame] at hfree
    rw [hrun]
    have hwritten : EntryRun config top tally entry fs _ := .written hd hr hc ht hf hfree hput hu
    cases stop <;> exact hwritten

/-- Every run on an entry ends in one of the listed ways. -/
theorem extractEntry_run (config : Config) (tally : Tally) (entry : ArchiveEntry)
    (h : Holds base top ledger fs) (hb : Base base root top) :
    EntryRun config top tally entry fs ((extractEntry config root tally entry).on fs) := by
  cases hd : checkDeclared config tally entry with
  | error limit =>
    rw [extractEntry, hd]
    exact .refused _
  | ok declared =>
    cases hr : EntryPath.ofRaw entry.path with
    | error fault =>
      rw [extractEntry, hd, resolveDestination, hr]
      exact .refused _
    | ok names =>
      obtain ⟨-, hplain⟩ := EntryPath.ofRaw_plain hr
      by_cases hz : '\x00' ∈ (Location.toPath (top ++ names)).toList
      · rw [extractEntry, hd]
        dsimp only
        rw [Action.on_bind, on_resolveDestination h hb hr, if_pos hz]
        exact .refused _
      obtain ⟨result, fs₁, bottom, hrun, hbottom, hfill, hok, -⟩ :=
        Action.makePath_straight ((h.straight names).upper (List.dropLast_prefix _))
          fun name hn => h.plain hplain name ((List.dropLast_prefix _).subset hn)
      rw [on_extractEntry h hb hd hr hz, hrun]
      rcases result with failure | ⟨⟩
      · exact .blocked failure (hbottom.trans (List.dropLast_prefix _)) hfill
      · obtain rfl := hok rfl
        exact .of_writeEntry h hd hr hfill

/-- What taking in the content of an entry ends with. -/
def contentResult (config : Config) (tally : Tally) (declared : Int) (entry : ArchiveEntry) :
    Except Failure Tally :=
  match entry.content () with
  | .error failure => .error failure
  | .ok stream =>
    let (content, stop) :=
      takeIn config entry.path tally.written stream.failure .empty stream.chunks
    unlessStopped stop ⟨tally.files + 1, declared, tally.written + content.size⟩

/-- Where nothing is in the way of an entry that passes the checks, its run ends as taking in its
content does. -/
theorem on_extractEntry_clear (h : Holds base top ledger fs) (hb : Base base root top)
    {declared : Int} (hd : checkDeclared config tally entry = .ok declared)
    (hr : EntryPath.ofRaw entry.path = .ok names) (hu : Location.Utterable (top ++ names))
    (hv : ∀ name ∈ names, ValidName name) (hclear : fs.Clear (top ++ names).dropLast)
    (hfree : fs.get? (top ++ names) = none ∨ ∃ old, fs.get? (top ++ names) = some (.file old)) :
    ((extractEntry config root tally entry).on fs).1 =
      contentResult config tally declared entry := by
  obtain ⟨hne, hplain⟩ := EntryPath.ofRaw_plain hr
  have hne' : top ++ names ≠ [] := by simp [hne]
  obtain ⟨result, fs₁, bottom, hrun, hbottom, hfill, hok, hres⟩ :=
    Action.makePath_straight hclear.straight hclear.plain
  obtain rfl := hres hclear
  obtain rfl := hok rfl
  have h₁ : Holds base top ledger fs₁ := h.filled hfill (List.dropLast_prefix _)
  have hopen : fs₁.Vacant (top ++ names) ∨ ∃ old, fs₁.get? (top ++ names) = some (.file old) := by
    rcases hfree with hnone | ⟨old, hold⟩
    · refine .inl ⟨hne', fun name hlast => hv name ?_, hfill.isDirectory, ?_⟩
      · rw [List.getLast?_append_of_ne_nil _ hne] at hlast
        exact List.mem_of_getLast? hlast
      · rw [hfill.get?_of_not_prefix, hnone]
        exact not_prefix_dropLast hne'
    · exact .inr ⟨old, hfill.get?_of_some hold⟩
  obtain ⟨there, fs', ho⟩ :=
    openForWriting_granted (h₁.straight names) hu (h₁.plain hplain) hne' hopen
  rw [on_extractEntry h hb hd hr hu.zero_notMem, hrun]
  rw [contentResult]
  dsimp only
  cases hc : entry.content () with
  | error failure =>
    rw [writeEntry, hc]
    rfl
  | ok stream =>
    obtain ⟨content, stop, ht⟩ : ∃ content stop,
        takeIn config entry.path tally.written stream.failure .empty stream.chunks =
          (content, stop) := ⟨_, _, rfl⟩
    rw [on_writeEntry fs₁ hc ht, ho]
    dsimp only
    rw [ht]
    cases stop <;> rfl

end SourceAtlas.Extraction
