import SourceAtlas.Proofs.Extraction.Entry

/-!
# The invariant of an extraction

While entries are extracted one after the other, the file system keeps the form that `Holds`
describes, and the ledger of what has been written stays within the limits (`Admitted`).  The
counters of the extraction are the length and the sum of the ledger (`Tally.Counts`); this is what
carries the limits from one entry to the next, also past an entry that is only written in part.

* `extractEntry_keeps` is the step, `extractEntries_keeps` the run over any number of entries.
* `extract_run` puts the making of the extraction root in front of it.
-/

namespace SourceAtlas.Extraction

open FileSystem

/-- The number of bytes that a ledger accounts for. -/
def written (ledger : List (Location × ByteArray)) : Nat :=
  (ledger.map fun entry => entry.2.size).sum

lemma written_cons (names : Location) (content : ByteArray) (ledger : List (Location × ByteArray)) :
    written ((names, content) :: ledger) = content.size + written ledger := by
  simp [written]

/-- A ledger within the limits; a negative limit admits what a limit of zero admits. -/
structure Admitted (config : Config) (ledger : List (Location × ByteArray)) : Prop where
  count : (ledger.length : Int) ≤ max 0 config.maxFiles
  total : (written ledger : Int) ≤ max 0 config.maxTotalBytes
  each : ∀ entry ∈ ledger, (entry.2.size : Int) ≤ max 0 config.maxFileBytes

/-- The counters of an extraction count its ledger. -/
structure Tally.Counts (tally : Tally) (ledger : List (Location × ByteArray)) : Prop where
  files : tally.files = ledger.length
  written : tally.written = Extraction.written ledger

variable {config : Config} {base fs : FileSystem} {root : String} {top : Location}
  {names : List String} {ledger : List (Location × ByteArray)} {content : ByteArray} {tally : Tally}
  {entry : ArchiveEntry}

/-! ## What is taken in -/

/-- A size breaches no limit exactly if it is within both of them. -/
lemma breach?_eq_none {before size : Int} :
    breach? config before size = none ↔
      size ≤ config.maxFileBytes ∧ before + size ≤ config.maxTotalBytes := by
  unfold breach?
  split
  · simp; omega
  split
  · simp; omega
  · simp; omega

/-- What is taken in of a content is nothing, or within the limits on sizes. -/
lemma takeIn_fits (path : String) (before : Int) (failure : Option Failure)
    (chunks : List ByteArray) {taken : ByteArray}
    (h : taken.size = 0 ∨ (taken.size : Int) ≤ config.maxFileBytes ∧
      before + taken.size ≤ config.maxTotalBytes) :
    (takeIn config path before failure taken chunks).1.size = 0 ∨
      ((takeIn config path before failure taken chunks).1.size : Int) ≤ config.maxFileBytes ∧
        before + (takeIn config path before failure taken chunks).1.size ≤
          config.maxTotalBytes := by
  induction chunks generalizing taken with
  | nil => exact h
  | cons chunk chunks ih =>
    rw [takeIn]
    split
    · exact h
    split
    · exact h
    rename_i hfit
    refine ih (.inr ?_)
    rw [ByteArray.size_append]
    exact_mod_cast breach?_eq_none.1 hfit

lemma breach?_eq_some {before size : Int} {limit : Limit}
    (h : breach? config before size = some limit) :
    limit = .fileSize ∨ limit = .totalSize := by
  unfold breach? at h
  split at h
  · exact .inl (Option.some.inj h).symm
  split at h
  · exact .inr (Option.some.inj h).symm
  · cases h

/-- Taking a content in is stopped by a limit on real sizes, or by what the content fails on. -/
lemma takeIn_stopped {path : String} {before : Int} {given : Option Failure} {taken : ByteArray}
    {chunks : List ByteArray} {failure : Failure}
    (h : (takeIn config path before given taken chunks).2 = some failure) :
    (∃ limit, (limit = .fileSize ∨ limit = .totalSize) ∧ failure = .archive (.ofLimit path limit)) ∨
      given = some failure := by
  induction chunks generalizing taken with
  | nil => exact .inr h
  | cons chunk chunks ih =>
    rw [takeIn] at h
    split at h
    · cases h
    split at h
    · next limit hbreach => exact .inl ⟨limit, breach?_eq_some hbreach, (Option.some.inj h).symm⟩
    · exact ih h

/-- An entry that passes the checks finds room for one more file. -/
lemma lt_maxFiles_of_checkDeclared {declared : Int}
    (h : checkDeclared config tally entry = .ok declared) : tally.files + 1 ≤ config.maxFiles := by
  unfold checkDeclared at h
  split at h
  · cases h
  · omega

lemma Admitted.nil (config : Config) : Admitted config [] := by
  refine ⟨?_, ?_, fun entry he => by cases he⟩
  · rw [List.length_nil]
    omega
  · rw [written, List.map_nil, List.sum_nil]
    omega

lemma Admitted.cons {chunks : List ByteArray} {failure : Option Failure} {declared : Int}
    (h : Admitted config ledger) (ht : tally.Counts ledger)
    (hd : checkDeclared config tally entry = .ok declared)
    (hc : (takeIn config entry.path tally.written failure .empty chunks).1 = content) :
    Admitted config ((names, content) :: ledger) := by
  have hroom := lt_maxFiles_of_checkDeclared hd
  have hfit := @takeIn_fits config entry.path tally.written failure chunks .empty (.inl rfl)
  have htotal := h.total
  rw [hc, ht.written] at hfit
  rw [ht.files] at hroom
  refine ⟨?_, ?_, ?_⟩
  · rw [List.length_cons]
    omega
  · rw [written_cons]
    omega
  · intro other ho
    rcases List.mem_cons.1 ho with rfl | ho
    · dsimp only
      omega
    · exact h.each other ho

/-! ## Step and run -/

/-- What an extraction has done so far, whether it goes on or has failed. -/
structure Keeps (config : Config) (base : FileSystem) (top : Location)
    (ledger : List (Location × ByteArray)) (outcome : Except Failure Tally × FileSystem) :
    Prop where
  holds : Holds base top ledger outcome.2
  admitted : Admitted config ledger
  counts : ∀ tally, outcome.1 = .ok tally → tally.Counts ledger

/-- An entry keeps an extraction within its bounds, whatever its outcome is. -/
lemma extractEntry_keeps (entry : ArchiveEntry) (hb : Base base root top)
    (hk : Keeps config base top ledger (.ok tally, fs)) :
    ∃ ledger', Keeps config base top ledger' ((extractEntry config root tally entry).on fs) := by
  have h : Holds base top ledger fs := hk.holds
  have hcounts := hk.counts tally rfl
  have hrun := extractEntry_run config tally entry h hb
  generalize (extractEntry config root tally entry).on fs = outcome at hrun
  cases hrun with
  | refused failure => exact ⟨ledger, h, hk.admitted, fun tally' he => by cases he⟩
  | blocked failure hbelow hf =>
    exact ⟨ledger, h.filled hf hbelow, hk.admitted, fun tally' he => by cases he⟩
  | @written declared names stream content stop fs₁ fs₂ hd hr hc ht hf ho hp hu =>
    have hne := (EntryPath.ofRaw_plain hr).1
    have h₁ := (h.filled hf (List.dropLast_prefix _)).put hp hne
    refine ⟨_, h₁, hk.admitted.cons hcounts hd (by rw [ht]), fun tally' he => ?_⟩
    cases stop with
    | some failure => cases he
    | none =>
      obtain rfl := Except.ok.inj he
      have hfiles := hcounts.files
      have hwritten := hcounts.written
      refine ⟨?_, ?_⟩
      · dsimp only
        rw [List.length_cons]
        omega
      · dsimp only
        rw [written_cons]
        omega

/-- Any number of entries keep an extraction within its bounds, wherever it stops. -/
theorem extractEntries_keeps (hb : Base base root top) (entries : List ArchiveEntry)
    (hk : Keeps config base top ledger (.ok tally, fs)) :
    ∃ ledger',
      Keeps config base top ledger' ((extractEntries config root tally entries).on fs) := by
  induction entries generalizing tally ledger fs with
  | nil => exact ⟨ledger, hk⟩
  | cons entry entries ih =>
    unfold extractEntries
    split
    · exact ih hk
    · obtain ⟨ledger', hk'⟩ := extractEntry_keeps entry hb hk
      rw [Action.on_bind]
      generalize (extractEntry config root tally entry).on fs = outcome at hk'
      obtain ⟨failure | tally', fs'⟩ := outcome
      · exact ⟨ledger', hk'⟩
      · exact ih hk'

/-! ## From the making of the root -/

/-- Once the root has been made, the entries are extracted below it. -/
lemma on_extract_of_made (config : Config) (listing : Listing)
    (hrun : (Action.makePath false (PurePath.ofString root)).on fs = (.ok (), base)) :
    (extract config listing root).on fs =
      match (extractEntries config (PurePath.ofString root).toString .zero listing.entries).on
        base with
      | (.error failure, after) => (.error failure, after)
      | (.ok tally, after) =>
        match listing.failure with
        | some failure => (.error failure, after)
        | none => (.ok tally.files, after) := by
  rw [extract, Action.on_bind_ok hrun, Action.on_bind]
  rcases (extractEntries config (PurePath.ofString root).toString .zero listing.entries).on
    base with ⟨failure | tally, after⟩
  · rfl
  · cases listing.failure <;> rfl

/-- What an extraction leaves below a root that it has just made. -/
lemma extract_of_made (config : Config) (listing : Listing)
    (hb : Base base (PurePath.ofString root).toString top)
    (hrun : (Action.makePath false (PurePath.ofString root)).on fs = (.ok (), base)) :
    ∃ ledger, Admitted config ledger ∧
      Holds base top ledger ((extract config listing root).on fs).2 := by
  have hstart : Keeps config base top [] (.ok Tally.zero, base) := by
    refine ⟨.start hb, .nil config, fun tally he => ?_⟩
    obtain rfl := Except.ok.inj he
    exact ⟨rfl, rfl⟩
  obtain ⟨ledger, hk⟩ := extractEntries_keeps hb listing.entries hstart
  have hholds := hk.holds
  refine ⟨ledger, hk.admitted, ?_⟩
  rw [on_extract_of_made config listing hrun]
  generalize (extractEntries config (PurePath.ofString root).toString .zero listing.entries).on
    base = outcome at hholds
  obtain ⟨failure | tally, after⟩ := outcome
  · exact hholds
  · cases listing.failure <;> exact hholds

/-- How the run of an extraction begins: the root cannot be made, and then only directories on the
way to it may have been, or it is new and the entries are extracted below it. -/
lemma extract_run (config : Config) (listing : Listing) (root : String) (fs : FileSystem) :
    ∃ fs₁, fs.AddsDirectories fs₁ (fun place => ∃ k, k < (PurePath.ofString root).names.length ∧
        fs₁.ArrivesAt (PurePath.toString ⟨(PurePath.ofString root).slashes,
          (PurePath.ofString root).names.take k⟩) place) ∧
      ((∃ failure, (Action.makePath false (PurePath.ofString root)).on fs = (.error failure, fs₁) ∧
          (extract config listing root).on fs = (.error failure, fs₁)) ∨
        ∃ top, fs₁.Vacant top ∧
          Base (fs₁.insert top .directory) (PurePath.ofString root).toString top ∧
          (Action.makePath false (PurePath.ofString root)).on fs =
            (.ok (), fs₁.insert top .directory) ∧
          (extract config listing root).on fs =
            match (extractEntries config (PurePath.ofString root).toString .zero listing.entries).on
                (fs₁.insert top .directory) with
            | (.error failure, after) => (.error failure, after)
            | (.ok tally, after) =>
              match listing.failure with
              | some failure => (.error failure, after)
              | none => (.ok tally.files, after)) := by
  obtain ⟨fs₁, hadds, ⟨top, hv, hrun, harr⟩ | ⟨failure, hrun⟩⟩ :=
    Action.makePath_cases (PurePath.ofString root) fs
  · refine ⟨fs₁, hadds, .inr ⟨top, hv, ⟨harr, ?_, fun rest hr => ?_⟩, hrun, ?_⟩⟩
    · show (fs₁.insert top .directory).get? top = some .directory
      rw [get?_insert hv, if_pos rfl]
    · rw [get?_insert hv, if_neg (by simpa using hr),
        get?_eq_none_of_above hv.get? (List.prefix_append top rest)]
    · exact on_extract_of_made config listing hrun
  · refine ⟨fs₁, hadds, .inl ⟨failure, hrun, ?_⟩⟩
    rw [extract, Action.on_bind_error hrun]

/-- What an extraction leaves below a root that it has made. -/
theorem extract_keeps (config : Config) (listing : Listing) (root : String) (fs : FileSystem) :
    ∃ fs₁, fs.AddsDirectories fs₁ (fun place => ∃ k, k < (PurePath.ofString root).names.length ∧
        fs₁.ArrivesAt (PurePath.toString ⟨(PurePath.ofString root).slashes,
          (PurePath.ofString root).names.take k⟩) place) ∧
      (((extract config listing root).on fs).2 = fs₁ ∨
        ∃ top ledger, fs₁.Vacant top ∧
          Base (fs₁.insert top .directory) (PurePath.ofString root).toString top ∧
          Admitted config ledger ∧
          Holds (fs₁.insert top .directory) top ledger
            ((extract config listing root).on fs).2) := by
  obtain ⟨fs₁, hadds, ⟨failure, -, hrun⟩ | ⟨top, hv, hb, hmade, -⟩⟩ :=
    extract_run config listing root fs
  · exact ⟨fs₁, hadds, .inl (by rw [hrun])⟩
  · obtain ⟨ledger, hadmitted, hholds⟩ := extract_of_made config listing hb hmade
    exact ⟨fs₁, hadds, .inr ⟨top, ledger, hv, hb, hadmitted, hholds⟩⟩

end SourceAtlas.Extraction
