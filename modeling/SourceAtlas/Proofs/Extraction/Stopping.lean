import SourceAtlas.Proofs.Extraction.Archive

/-!
# Where an extraction stops

An extraction that fails below a root that it has made stops at one entry, or at the end of
an incomplete listing.  What comes after that entry has no part in it, neither in the failure
nor in what is left behind; what came before it has been extracted as if there had been
nothing else (`extract_stops`).

What the entry itself leaves depends on what it has failed.  The checks come first, in the order of
`Check.all`:  an entry that fails one of them is put down to the first of them, and nothing is made
for it (`Stopped.refused`).  An entry that passes the checks can still fail while it is written.
Then the directories above its destination may have been made, and at the destination may be a file
with a beginning of its content (`Stopped.interrupted`, `Remnant`).

The step is `extractEntry_stopped`; the run over the entries before it is `extractEntries_eq_error`.
-/

namespace SourceAtlas

open FileSystem Extraction SourceAtlas.Action

/-- What reading the content of an entry fails with. -/
def ArchiveEntry.Raises (entry : ArchiveEntry) (failure : Failure) : Prop :=
  entry.content () = .error failure ∨
    ∃ stream, entry.content () = .ok stream ∧ stream.failure = some failure

/-- A failure that a check reports before anything is made for an entry. -/
def Failure.IsCheckFailure (failure : Failure) : Prop :=
  ∃ path, (∃ limit, (limit = .fileCount ∨ limit = .declaredFileSize ∨ limit = .declaredTotalSize) ∧
      failure = .archive (.ofLimit path limit)) ∨
    ∃ reason, failure = .archive (.ofUnsafe path reason)

namespace Extraction

/-! ## Checks -/

/-- What an entry is checked for before anything is made for it. -/
inductive Check
  | count
  | declaredSize
  | declaredTotal
  | path

/-- The checks in their order. -/
def Check.all : List Check := [.count, .declaredSize, .declaredTotal, .path]

/-- The failure that a check reports of an entry after the files before it, if the entry does
not pass. -/
def Check.failure? (config : Config) (done : List ArchiveEntry) (entry : ArchiveEntry) :
    Check → Option Failure
  | .count =>
    if config.maxFiles < done.length + 1 then
      some (.archive (.ofLimit entry.path .fileCount))
    else none
  | .declaredSize =>
    if config.maxFileBytes < entry.declared then
      some (.archive (.ofLimit entry.path .declaredFileSize))
    else none
  | .declaredTotal =>
    if config.maxTotalBytes < declaredSum done + entry.declared then
      some (.archive (.ofLimit entry.path .declaredTotalSize))
    else none
  | .path =>
    match EntryPath.ofRaw entry.path with
    | .error fault => some (.archive (.ofUnsafe entry.path (.name fault)))
    | .ok names =>
      if ∃ name ∈ names, '\x00' ∈ name.toList then some (.file .nullByte) else none

/-- The failure of the first check that an entry does not pass. -/
def checkFailure? (config : Config) (done : List ArchiveEntry) (entry : ArchiveEntry) :
    Option Failure :=
  Check.all.findSome? (Check.failure? config done entry)

variable {config : Config} {base fs fs' : FileSystem} {root : String} {top place : Location}
  {ledger : List (Location × ByteArray)} {done entries : List ArchiveEntry} {entry : ArchiveEntry}
  {tally tally' : Tally} {failure : Failure}

/-- The checks on limits come before the one on the path. -/
lemma checkFailure?_eq (config : Config) (entry : ArchiveEntry) (hf : tally.files = done.length)
    (hd : tally.declared = declaredSum done) :
    checkFailure? config done entry =
      match checkDeclared config tally entry with
      | .error limit => some (.archive (.ofLimit entry.path limit))
      | .ok _ => Check.path.failure? config done entry := by
  rw [checkDeclared, ← ArchiveEntry.declared, hf, hd, checkFailure?, Check.all]
  simp only [List.findSome?_cons, List.findSome?_nil]
  by_cases hcount : config.maxFiles < done.length + 1
  · simp [Check.failure?, hcount]
  by_cases hsize : config.maxFileBytes < entry.declared
  · simp [Check.failure?, hcount, hsize]
  by_cases htotal : config.maxTotalBytes < declaredSum done + entry.declared
  · simp [Check.failure?, hcount, hsize, htotal]
  · cases hpath : Check.path.failure? config done entry with
    | none => simp [Check.failure?, hcount, hsize, htotal]
    | some failure => simp [Check.failure?, hcount, hsize, htotal]

/-! ## Failing while an entry is written -/

/-- What an entry that passes the checks can fail with: the file system refuses a directory or the
file, the content cannot be read, or a portion of it breaches a limit. -/
inductive WriteFailure (entry : ArchiveEntry) : Failure → Prop
  | refused (e : FileError) : WriteFailure entry (.file e)
  | unread {failure : Failure} (h : entry.Raises failure) : WriteFailure entry failure
  | breached {limit : Limit} (h : limit = .fileSize ∨ limit = .totalSize) :
      WriteFailure entry (.archive (.ofLimit entry.path limit))

/-- What is left of an entry that was to be written to a place: directories above the place that
were missing, and at the place a file with a beginning of the content. -/
structure Remnant (config : Config) (entry : ArchiveEntry) (place : Location)
    (fs fs' : FileSystem) : Prop where
  workingDirectory : fs'.workingDirectory = fs.workingDirectory
  get? : ∀ location, fs'.get? location = fs.get? location ∨
    (location <+: place.dropLast ∧ fs.get? location = none ∧ fs'.isDirectory location) ∨
    (location = place ∧ ∃ content rest, fs'.get? location = some (.file content) ∧
      entry.bytes = content ++ rest ∧ (content.size : Int) ≤ max 0 config.maxFileBytes)

/-- How an entry stops an extraction. -/
inductive Stopped (config : Config) (root : String) (done : List ArchiveEntry)
    (entry : ArchiveEntry) (fs : FileSystem) : Failure → FileSystem → Prop
  /-- It does not pass the checks, and nothing is made for it. -/
  | refused {failure : Failure} (h : checkFailure? config done entry = some failure) :
      Stopped config root done entry fs failure fs
  /-- It passes the checks, and cannot be written to the end. -/
  | interrupted {failure : Failure} {fs' : FileSystem} {place : Location}
      (h : checkFailure? config done entry = none)
      (hplace : (resolveDestination root entry.path).on fs = (.ok place, fs))
      (hfailure : WriteFailure entry failure) (hleft : Remnant config entry place fs fs') :
      Stopped config root done entry fs failure fs'

lemma Remnant.of_filled {bottom : Location} (h : fs.FilledTo fs' bottom)
    (hb : bottom <+: place.dropLast) :
    Remnant config entry place fs fs' := by
  refine ⟨h.workingDirectory, fun location => ?_⟩
  by_cases hp : location <+: bottom ∧ fs.get? location = none
  · refine .inr (.inl ⟨hp.1.trans hb, hp.2, ?_⟩)
    rw [isDirectory, h.get?, if_pos hp]
  · exact .inl (by rw [h.get?, if_neg hp])

lemma Remnant.put {fs₁ : FileSystem} {content rest : ByteArray}
    (h : Remnant config entry place fs fs₁) (hp : Put fs₁ fs' place content)
    (hc : entry.bytes = content ++ rest) (hs : (content.size : Int) ≤ max 0 config.maxFileBytes) :
    Remnant config entry place fs fs' := by
  refine ⟨hp.workingDirectory.trans h.workingDirectory, fun location => ?_⟩
  by_cases he : location = place
  · exact .inr (.inr ⟨he, content, rest, by rw [hp.get?, if_pos he], hc, hs⟩)
  · rw [isDirectory, hp.get?, if_neg he]
    exact h.get? location

/-! ## Step and run -/

/-- The check on the path asks whether a destination can be resolved. -/
lemma zero_mem_toPath_iff {names : List String} (h : Holds base top ledger fs) :
    '\x00' ∈ (Location.toPath (top ++ names)).toList ↔ ∃ name ∈ names, '\x00' ∈ name.toList := by
  rw [Location.zero_mem_toPath]
  constructor
  · rintro ⟨name, hn, hz⟩
    rcases List.mem_append.1 hn with ht | hn
    · exact absurd hz (validName_of_get? h.isDirectory ht).zero_notMem
    · exact ⟨name, hn, hz⟩
  · rintro ⟨name, hn, hz⟩
    exact ⟨name, List.mem_append_right _ hn, hz⟩

/-- Writing a content that is stopped leaves at most a beginning of it. -/
lemma writeEntry_eq_error {fs₁ : FileSystem} {before : Int} (hs : fs₁.Straight place)
    (hp : ∀ name ∈ place, PlainName name) (hne : place ≠ [])
    (hsort : ∀ node, fs₁.get? place = some node →
      node = .directory ∨ ∃ content, node = .file content)
    (hleft : Remnant config entry place fs fs₁)
    (hrun : (writeEntry config entry place before).on fs₁ = (.error failure, fs')) :
    WriteFailure entry failure ∧ Remnant config entry place fs fs' := by
  rcases writeEntry_cases config entry before hs hp hne hsort with
    ⟨failure', hwrite, hcause⟩ | ⟨stream, content, stop, fs₂, hc, ht, hput, -, -, hwrite⟩
  · rw [hwrite] at hrun
    cases hrun
    refine ⟨?_, hleft⟩
    rcases hcause with ⟨e, rfl⟩ | hc
    · exact .refused e
    · exact .unread (.inl hc)
  · rw [hwrite] at hrun
    cases stop with
    | none => cases hrun
    | some failure' =>
      cases hrun
      have hbytes : entry.bytes = Stream.joined .empty stream.chunks := by
        rw [ArchiveEntry.bytes, hc]
      have hfits :=
        @takeIn_fits config entry.path before stream.failure stream.chunks .empty (.inl rfl)
      obtain ⟨rest, hstarts⟩ :=
        takeIn_starts config entry.path before stream.failure .empty stream.chunks
      rw [← hbytes, ht] at hstarts
      rw [ht] at hfits
      dsimp only at hfits
      refine ⟨?_, hleft.put hput hstarts (by omega)⟩
      rcases takeIn_stopped (congrArg Prod.snd ht) with ⟨limit, hlimit, rfl⟩ | hfails
      · exact .breached hlimit
      · exact .unread (.inr ⟨stream, hc, hfails⟩)

/-- An entry that passes the checks and fails is interrupted while it is written. -/
lemma stopped_of_passed (h : Holds base top ledger fs) (hb : Base base root top) {declared : Int}
    {names : List String} (hcheck : checkFailure? config done entry = none)
    (hdeclared : checkDeclared config tally entry = .ok declared)
    (hr : EntryPath.ofRaw entry.path = .ok names)
    (hz : '\x00' ∉ (Location.toPath (top ++ names)).toList)
    (hrun : (extractEntry config root tally entry).on fs = (.error failure, fs')) :
    Stopped config root done entry fs failure fs' := by
  obtain ⟨hne, hplain⟩ := EntryPath.ofRaw_plain hr
  have hne' : top ++ names ≠ [] := by simp [hne]
  have hplace := on_resolveDestination h hb hr
  rw [if_neg hz] at hplace
  obtain ⟨result, fs₁, bottom, hmade, hbottom, hfill, hok, -⟩ :=
    makePath_straight ((h.straight names).upper (List.dropLast_prefix _))
      fun name hn => h.plain hplain name ((List.dropLast_prefix _).subset hn)
  have hleft : Remnant config entry (top ++ names) fs fs₁ := .of_filled hfill hbottom
  rw [on_extractEntry h hb hdeclared hr hz, hmade] at hrun
  rcases result with failure' | ⟨⟩
  · cases hrun
    obtain ⟨e, rfl⟩ := makePath_eq_error (congrArg Prod.fst hmade)
    exact .interrupted hcheck hplace (.refused e) hleft
  · obtain rfl := hok rfl
    dsimp only at hrun
    have h₁ : Holds base top ledger fs₁ := h.filled hfill (List.dropLast_prefix _)
    rcases hwrite : (writeEntry config entry (top ++ names) tally.written).on fs₁ with
      ⟨failure' | size, fs₂⟩
    · rw [hwrite] at hrun
      cases hrun
      obtain ⟨hfailure, hleft'⟩ := writeEntry_eq_error (h₁.straight names) (h₁.plain hplain) hne'
        (h₁.sort names) hleft hwrite
      exact .interrupted hcheck hplace hfailure hleft'
    · rw [hwrite] at hrun
      cases hrun

/-- An entry that fails stops the extraction in one of the listed ways. -/
theorem extractEntry_stopped (h : Holds base top ledger fs) (hb : Base base root top)
    (hf : tally.files = done.length) (hd : tally.declared = declaredSum done)
    (hrun : (extractEntry config root tally entry).on fs = (.error failure, fs')) :
    Stopped config root done entry fs failure fs' := by
  have hcheck := checkFailure?_eq config entry hf hd
  cases hdeclared : checkDeclared config tally entry with
  | error limit =>
    rw [hdeclared] at hcheck
    rw [extractEntry, hdeclared] at hrun
    cases hrun
    exact .refused hcheck
  | ok declared =>
    rw [hdeclared] at hcheck
    dsimp only [Check.failure?] at hcheck
    cases hr : EntryPath.ofRaw entry.path with
    | error fault =>
      rw [hr] at hcheck
      rw [extractEntry, hdeclared, resolveDestination, hr] at hrun
      cases hrun
      exact .refused hcheck
    | ok names =>
      rw [hr] at hcheck
      dsimp only at hcheck
      by_cases hzero : ∃ name ∈ names, '\x00' ∈ name.toList
      · have hplace := on_resolveDestination h hb hr
        rw [if_pos ((zero_mem_toPath_iff h).2 hzero)] at hplace
        rw [if_pos hzero] at hcheck
        rw [extractEntry, hdeclared] at hrun
        dsimp only at hrun
        rw [on_bind_error hplace] at hrun
        cases hrun
        exact .refused hcheck
      · rw [if_neg hzero] at hcheck
        exact stopped_of_passed h hb hcheck hdeclared hr (mt (zero_mem_toPath_iff h).1 hzero) hrun

/-- Entries are extracted in two goes as in one. -/
lemma on_extractEntries_append (first second : List ArchiveEntry) :
    (extractEntries config root tally (first ++ second)).on fs =
      match (extractEntries config root tally first).on fs with
      | (.error failure, fs') => (.error failure, fs')
      | (.ok tally', fs') => (extractEntries config root tally' second).on fs' := by
  induction first generalizing tally fs with
  | nil => rfl
  | cons entry first ih =>
    rw [List.cons_append, extractEntries, extractEntries]
    split
    · exact ih
    · rw [on_bind, on_bind]
      rcases (extractEntry config root tally entry).on fs with ⟨failure | tally', fs'⟩
      · rfl
      · exact ih

/-- A run over entries fails at one of them, after those before it. -/
theorem extractEntries_eq_error
    (h : (extractEntries config root tally entries).on fs = (.error failure, fs')) :
    ∃ before entry after tally₁ fs₁, entries = before ++ entry :: after ∧
    entry.isDirectory = false ∧
      (extractEntries config root tally before).on fs = (.ok tally₁, fs₁) ∧
      (extractEntry config root tally₁ entry).on fs₁ = (.error failure, fs') := by
  induction entries generalizing tally fs with
  | nil => cases h
  | cons first entries ih =>
    rw [extractEntries] at h
    cases hd : first.isDirectory with
    | true =>
      rw [hd, if_pos rfl] at h
      obtain ⟨before, entry, after, tally₁, fs₁, rfl, hfile, hbefore, hentry⟩ := ih h
      refine ⟨first :: before, entry, after, tally₁, fs₁, rfl, hfile, ?_, hentry⟩
      rw [extractEntries, hd, if_pos rfl, hbefore]
    | false =>
      rw [hd, if_neg (by simp), on_bind] at h
      rcases hfirst : (extractEntry config root tally first).on fs with ⟨failure' | tally', fs''⟩
      · rw [hfirst] at h
        cases h
        exact ⟨[], first, entries, tally, fs, rfl, hd, rfl, hfirst⟩
      · rw [hfirst] at h
        obtain ⟨before, entry, after, tally₁, fs₁, rfl, hfile, hbefore, hentry⟩ := ih h
        refine ⟨first :: before, entry, after, tally₁, fs₁, rfl, hfile, ?_, hentry⟩
        rw [extractEntries, hd, if_neg (by simp), on_bind_ok hfirst, hbefore]

/-- What an entry that has passed the checks fails with is not reported by a check, unless its
content fails in the same way. -/
lemma WriteFailure.not_isCheckFailure (h : WriteFailure entry failure)
    (hc : failure.IsCheckFailure) :
    entry.Raises failure := by
  obtain ⟨path, ⟨limit, hlimit, rfl⟩ | ⟨reason, rfl⟩⟩ := hc
  · generalize he : Failure.archive (.ofLimit path limit) = failure at h
    cases h with
    | refused e => cases he
    | unread h => exact he ▸ h
    | @breached limit' hlimit' =>
      rcases hlimit with rfl | rfl | rfl <;> rcases hlimit' with rfl | rfl <;>
        simp [ArchiveError.ofLimit, Limit.message] at he
  · generalize he : Failure.archive (.ofUnsafe path reason) = failure at h
    cases h with
    | refused e => cases he
    | unread h => exact he ▸ h
    | breached hlimit' => simp [ArchiveError.ofUnsafe, ArchiveError.ofLimit] at he

end Extraction

/-! ## The extraction of a listing -/

/-- An extraction stops at an entry: `fs₁` is what the entries before it leave, `fs₂` what is left
in the end. -/
structure StopsAt (config : Config) (root : String) (fs : FileSystem) (before : List ArchiveEntry)
    (entry : ArchiveEntry) (failure : Failure) (fs₁ fs₂ : FileSystem) : Prop where
  isFile : entry.isDirectory = false
  extracted : ∃ count, (extract config ⟨before, none⟩ root).on fs = (.ok count, fs₁)
  /-- Nothing that comes after the entry matters. -/
  final : ∀ after ending,
    (extract config ⟨before ++ entry :: after, ending⟩ root).on fs = (.error failure, fs₂)
  stopped : Stopped config (PurePath.ofString root).toString
    (before.filter fun entry => !entry.isDirectory) entry fs₁ failure fs₂
  untouched : failure.IsCheckFailure → entry.Raises failure ∨ fs₂ = fs₁

/-- A file, a directory, a file with two portions that are too long together, and a file
after it. -/
def tooLongTogether : Listing where
  entries := [.ofBytes "a/b" none ⟨#[1]⟩, ⟨"c/", none, true, fun _ => .ok ⟨[], none⟩⟩,
    ⟨"a/d/e", some 1, false, fun _ => .ok ⟨[⟨#[1, 2]⟩, ⟨#[3, 4]⟩], none⟩⟩, .ofBytes "f" none ⟨#[5]⟩]
  failure := none

example : ((extract { maxFileBytes := 3 } tooLongTogether "r").on (.empty [] ⟨0⟩)).2.get?
    ["r", "a", "d", "e"] = some (.file ⟨#[1, 2]⟩) := by decide +kernel

end SourceAtlas
