import SourceAtlas.Proofs.Path.Canonical
import SourceAtlas.Proofs.Project.Noninterference

/-!
# The listing of a directory

What a scan answers for any root, one that leads nowhere included: the paths of the visible files,
each once and in the order of the walk (`FileSystem.IsListing`, `scan_isListing`).  The paths are
canonical, and each is what the path of the file comes to when the root is taken off it.

A path is listed only if the file can be looked up by it from the root as it is given.
From a root that is written with many segments that mean nothing, a visible file may be
too far (`not_scan_of_shows`).
-/

namespace SourceAtlas

open FileSystem SourceAtlas.Action

variable {fs : FileSystem} {ignored : List String} {root path : String}

namespace FileSystem

/-- A path shows a file from a root: the root leads to a directory, the segments before the last one
lead through real directories that are not ignored, and a regular file stands at the last one. -/
def Shows (fs : FileSystem) (ignored : List String) (root path : String) : Prop :=
  ∃ place directories name, fs.LeadsTo root place ∧ path = Path.ofSegments (directories ++ [name]) ∧
    (∀ above, above <+: directories → fs.isDirectory (place ++ above)) ∧
    (∀ directory ∈ directories, directory ∉ ignored) ∧
    ∃ content, fs.get? (place ++ (directories ++ [name])) = some (.file content)

/-- The paths list what is shown from a root, each path once and in the order of the walk. -/
structure IsListing (fs : FileSystem) (ignored : List String) (root : String)
    (paths : List String) : Prop where
  mem_iff : ∀ path, path ∈ paths ↔
    fs.Shows ignored root path ∧ (Path.append root path).utf8ByteSize ≤ maxPathBytes
  nodup : paths.Nodup
  ordered : paths.Pairwise fun first second => Earlier (Path.segments first) (Path.segments second)
  canonical : ∀ path ∈ paths, Path.IsCanonical path
  relative : ∀ path ∈ paths,
    Path.relative? fs.workingDirectory.toPath root (Path.append root path) = some path

/-- Only directories hold entries, so the way to a file needs no checks. -/
lemma shows_iff_visible {place : Location} (h : fs.LeadsTo root place) :
    fs.Shows ignored root path ↔
      ∃ names, fs.Visible ignored place names ∧ path = Path.ofSegments names := by
  constructor
  · rintro ⟨place', directories, name, h', rfl, -, hopen, hfile⟩
    obtain rfl := h.unique h'
    refine ⟨directories ++ [name], ⟨hfile, ?_⟩, rfl⟩
    rwa [List.dropLast_concat]
  · rintro ⟨names, ⟨⟨content, hfile⟩, hopen⟩, rfl⟩
    rcases List.eq_nil_or_concat names with rfl | ⟨directories, name, rfl⟩
    · exact absurd rfl (ne_nil_of_file h.isDirectory hfile)
    rw [List.concat_eq_append] at hfile hopen ⊢
    rw [List.dropLast_concat] at hopen
    refine ⟨place, directories, name, h, rfl, fun above ha => ?_, hopen, content, hfile⟩
    have hbelow : place ++ above <+: place ++ (directories ++ [name]) :=
      (List.prefix_append_right_inj place).2 (ha.trans (List.prefix_append ..))
    refine isDirectory_of_above hfile hbelow fun he => ?_
    have hlength := ha.length_le
    rw [List.append_cancel_left he, List.length_append, List.length_singleton] at hlength
    omega

lemma Visible.plain {place names : Location} (h : fs.Visible ignored place names) :
    ∀ name ∈ names, PlainName name := by
  obtain ⟨content, hfile⟩ := h.1
  exact fun name hn => (validName_of_get? hfile (List.mem_append_right _ hn)).plain

/-- Names that are plain can be read off the path. -/
lemma segments_of_mem_listed {place names : Location} (hd : fs.isDirectory place)
    (hn : names ∈ fs.listed ignored root place) : Path.segments (Path.ofSegments names) = names :=
  Path.segments_ofSegments (ne_nil_of_mem_listed hn) fun name hm =>
    (((mem_listed hd).1 hn).1.plain name hm).2.2.2

lemma isListing_listed {place : Location} (h : fs.LeadsTo root place) :
    fs.IsListing ignored root ((fs.listed ignored root place).map Path.ofSegments) := by
  have hsegments := fun names => @segments_of_mem_listed fs ignored root place names h.isDirectory
  have hordered : (fs.listed ignored root place).Pairwise fun first second =>
      Earlier (Path.segments (Path.ofSegments first)) (Path.segments (Path.ofSegments second)) := by
    refine (pairwise_listed fs ignored root place).imp_of_mem fun {first second} hf hs he => ?_
    rwa [hsegments first hf, hsegments second hs]
  constructor
  case mem_iff =>
    intro path
    rw [shows_iff_visible h, List.mem_map]
    constructor
    · rintro ⟨names, hn, rfl⟩
      obtain ⟨hv, hs⟩ := (mem_listed h.isDirectory).1 hn
      exact ⟨⟨names, hv, rfl⟩, hs⟩
    · rintro ⟨⟨names, hv, rfl⟩, hs⟩
      exact ⟨names, (mem_listed h.isDirectory).2 ⟨hv, hs⟩, rfl⟩
  case nodup =>
    rw [List.Nodup, List.pairwise_map]
    refine hordered.imp fun he hsame => ?_
    rw [hsame] at he
    exact he.asymm he
  case ordered =>
    rwa [List.pairwise_map]
  case canonical =>
    intro path hp
    obtain ⟨names, hn, rfl⟩ := List.mem_map.1 hp
    exact Path.isCanonical_ofSegments (ne_nil_of_mem_listed hn)
      ((mem_listed h.isDirectory).1 hn).1.plain
  case relative =>
    intro path hp
    obtain ⟨names, hn, rfl⟩ := List.mem_map.1 hp
    exact Path.relative?_append (Location.isAbsolute_toPath _) h.ne_empty (ne_nil_of_mem_listed hn)
      ((mem_listed h.isDirectory).1 hn).1.plain

/-- From a root that leads to no directory nothing is shown. -/
lemma isListing_nil (h : ∀ place, ¬ fs.LeadsTo root place) : fs.IsListing ignored root [] := by
  refine ⟨fun path => ?_, .nil, .nil, by simp, by simp⟩
  constructor
  · intro hm
    cases hm
  · rintro ⟨⟨place, -, -, hroot, -⟩, -⟩
    exact absurd hroot (h place)

/-- A path is refused for a zero character only if it has one. -/
lemma locate_ne_nullByte (hz : '\x00' ∉ root.toList) : fs.locate true root ≠ .error .nullByte := by
  intro h
  rw [locate, lookup, walkText] at h
  split at h
  · rename_i e hlookup
    obtain rfl := Except.error.inj h
    split at hlookup
    · rename_i hcheck
      obtain rfl := Except.error.inj hlookup
      rw [checkText, if_neg hz] at hcheck
      split_ifs at hcheck <;> cases hcheck
    · split at hlookup <;> cases hlookup
  · cases h
  · cases h

end FileSystem

/-- A root that leads to no directory has no files. -/
lemma on_scan_of_not_leadsTo (hz : '\x00' ∉ root.toList) (h : ∀ place, ¬ fs.LeadsTo root place) :
    (scan ignored root).on fs = (.ok [], fs) := by
  rw [scan, on_bind_ok on_get]
  cases hlocate : fs.locate true root with
  | error e =>
    cases e with
    | nullByte => exact absurd hlocate (locate_ne_nullByte hz)
    | os code => rfl
  | ok place =>
    dsimp only
    rw [if_neg fun hd => h place (leadsTo_iff_locate.2 ⟨hlocate, hd⟩)]
    rfl

/-- A scan lists a directory and changes nothing. -/
theorem scan_isListing (fs : FileSystem) (ignored : List String) (hz : '\x00' ∉ root.toList) :
    ∃ paths, (scan ignored root).on fs = (.ok paths, fs) ∧ fs.IsListing ignored root paths := by
  by_cases h : ∃ place, fs.LeadsTo root place
  · obtain ⟨place, h⟩ := h
    exact ⟨_, on_scan h ignored, isListing_listed h⟩
  · rw [not_exists] at h
    exact ⟨[], on_scan_of_not_leadsTo hz h, isListing_nil h⟩

/-- The furnished project behind a link. -/
def linked : FileSystem := furnished.insert ["l"] (.link "p")

theorem scan_isListing_linked : '\x00' ∉ "l/".toList ∧
    ∃ paths, (scan defaultIgnoredDirs "l/").on linked = (.ok paths, linked) ∧
      linked.IsListing defaultIgnoredDirs "l/" paths ∧ "a.js" ∈ paths := by
  have hz : '\x00' ∉ "l/".toList := by decide
  obtain ⟨paths, hscan, hlisting⟩ := scan_isListing linked defaultIgnoredDirs hz
  have hfacts : linked.locate true "l/" = .ok ["p"] ∧ linked.isDirectory ["p"] := by decide +kernel
  have hroot : linked.LeadsTo "l/" ["p"] := leadsTo_iff_locate.2 hfacts
  have hvisible : linked.Visible defaultIgnoredDirs ["p"] ["a.js"] := by decide +kernel
  have hshort : (Path.append "l/" "a.js").utf8ByteSize ≤ maxPathBytes := by decide +kernel
  have hpath : "a.js" = Path.ofSegments ["a.js"] := by decide +kernel
  exact ⟨hz, paths, hscan, hlisting, (hlisting.mem_iff "a.js").2
    ⟨(shows_iff_visible hroot).2 ⟨_, hvisible, hpath⟩, hshort⟩⟩

/-- Not all that is shown is listed. -/
theorem not_scan_of_shows :
    ¬ ∀ (fs : FileSystem) (ignored : List String) (root : String), '\x00' ∉ root.toList →
      ∃ paths, (scan ignored root).on fs = (.ok paths, fs) ∧
        ∀ path, path ∈ paths ↔ fs.Shows ignored root path := by
  intro hall
  have hd : single.isDirectory ["e"] := by decide +kernel
  have hroot : single.LeadsTo (dottedPath 2046) ["e"] := leadsTo_dottedPath (by decide) rfl hd
  have hshown : single.Shows defaultIgnoredDirs (dottedPath 2046) "a.js" :=
    (shows_iff_visible hroot).2 ⟨["a.js"], by decide +kernel, by decide +kernel⟩
  obtain ⟨paths, hscan, hmem⟩ := hall single defaultIgnoredDirs (dottedPath 2046)
    (zero_notMem_dottedPath 2046)
  rw [on_scan hroot, listed_single] at hscan
  obtain rfl := Except.ok.inj (Prod.mk.inj hscan).1
  cases (hmem "a.js").2 hshown

end SourceAtlas
