import Mathlib.Algebra.Ring.Int.Defs
import SourceAtlas.Proofs.Extraction.Confinement
import SourceAtlas.Proofs.Extraction.Readable

/-!
# When an extraction succeeds, and what it yields

For entries whose contents can be read, whether an extraction succeeds is decided by their sizes and
names (`Admissible`) and by the length of the path texts of their places (`Extractable`).
`Unpacked` describes the file system after a number of entries: below the root stand the files, each
with the content of the latest entry of its name, and the directories that lead to them.

* `Extractable.snoc` says what one more entry asks for (`Admits`).
* `extractEntry_ok_iff` is the step: an entry is extracted exactly if it is admitted after
  those before it.
* `extractEntries_ok_iff` is the run.
-/

namespace SourceAtlas

/-- The entries of a listing that are to be written. -/
def Listing.files (listing : Listing) : List ArchiveEntry :=
  listing.entries.filter fun entry => !entry.isDirectory

namespace Extraction

open FileSystem

/-- The sum of the declared sizes. -/
def declaredSum (entries : List ArchiveEntry) : Int :=
  (entries.map ArchiveEntry.declared).sum

/-- The sum of the sizes of the contents. -/
def contentSum (entries : List ArchiveEntry) : Nat :=
  (entries.map fun entry => entry.bytes.size).sum

/-- What the limits and the names of entries have to be like for all of them to be extracted. -/
structure Admissible (config : Config) (entries : List ArchiveEntry) : Prop where
  count : entries = [] ∨ (entries.length : Int) ≤ config.maxFiles
  declared : ∀ entry ∈ entries, entry.declared ≤ config.maxFileBytes
  declaredTotal : ∀ front, front ≠ [] → front <+: entries → declaredSum front ≤ config.maxTotalBytes
  size : ∀ entry ∈ entries, entry.bytes.size ≠ 0 → (entry.bytes.size : Int) ≤ config.maxFileBytes
  total : ∀ front entry, front ++ [entry] <+: entries → entry.bytes.size ≠ 0 →
    (contentSum (front ++ [entry]) : Int) ≤ config.maxTotalBytes
  named : ∀ entry ∈ entries, ∃ names, entry.names? = some names ∧ ∀ name ∈ names, ValidName name
  apart : ∀ entry ∈ entries, ∀ other ∈ entries, ∀ names names', entry.names? = some names →
    other.names? = some names' → names <+: names' → names = names'

/-- Entries that can be extracted below a location: the path texts of their places are not too long
either. -/
structure Extractable (config : Config) (top : Location) (entries : List ArchiveEntry) : Prop
    extends Admissible config entries where
  fits : ∀ entry ∈ entries, ∀ names, entry.names? = some names →
    (Location.toPath (top ++ names)).utf8ByteSize ≤ maxPathBytes

/-- What it takes for an entry to be extracted after other ones. -/
structure Admits (config : Config) (top : Location) (done : List ArchiveEntry)
    (entry : ArchiveEntry) (names : Location) : Prop where
  count : (done.length : Int) + 1 ≤ config.maxFiles
  declared : entry.declared ≤ config.maxFileBytes
  declaredTotal : declaredSum done + entry.declared ≤ config.maxTotalBytes
  size : entry.bytes.size = 0 ∨ (entry.bytes.size : Int) ≤ config.maxFileBytes ∧
    (contentSum done : Int) + entry.bytes.size ≤ config.maxTotalBytes
  named : entry.names? = some names
  valid : ∀ name ∈ names, ValidName name
  fits : (Location.toPath (top ++ names)).utf8ByteSize ≤ maxPathBytes
  apart : ∀ other ∈ done, ∀ names', other.names? = some names' →
    (names <+: names' → names = names') ∧ (names' <+: names → names' = names)

variable {config : Config} {base fs : FileSystem} {root : String} {top names : Location}
  {done rest : List ArchiveEntry} {entry : ArchiveEntry} {tally tally' : Tally}

lemma declaredSum_snoc : declaredSum (done ++ [entry]) = declaredSum done + entry.declared := by
  simp [declaredSum]

lemma contentSum_snoc : contentSum (done ++ [entry]) = contentSum done + entry.bytes.size := by
  simp [contentSum]

lemma forall_mem_snoc {p : ArchiveEntry → Prop} :
    (∀ other ∈ done ++ [entry], p other) ↔ (∀ other ∈ done, p other) ∧ p entry := by
  rw [List.forall_mem_append, List.forall_mem_singleton]

namespace Extractable

lemma nil (config : Config) (top : Location) : Extractable config top [] where
  count := .inl rfl
  declared := by simp
  declaredTotal := fun front hne hp => absurd (List.prefix_nil.1 hp) hne
  size := by simp
  total := fun front entry hp => by simp at hp
  named := by simp
  apart := by simp
  fits := by simp

lemma of_front {front : List ArchiveEntry} (h : Extractable config top done) (hp : front <+: done) :
    Extractable config top front where
  count := by
    rcases h.count with rfl | hc
    · exact .inl (List.prefix_nil.1 hp)
    · have := hp.length_le
      exact .inr (by omega)
  declared := fun entry he => h.declared entry (hp.subset he)
  declaredTotal := fun other hne ho => h.declaredTotal other hne (ho.trans hp)
  size := fun entry he => h.size entry (hp.subset he)
  total := fun other entry ho => h.total other entry (ho.trans hp)
  named := fun entry he => h.named entry (hp.subset he)
  apart := fun entry he other ho => h.apart entry (hp.subset he) other (hp.subset ho)
  fits := fun entry he => h.fits entry (hp.subset he)

lemma admits_of_snoc (h : Extractable config top (done ++ [entry])) :
    ∃ names, Admits config top done entry names := by
  have hmem : entry ∈ done ++ [entry] := by simp
  have hself : done ++ [entry] <+: done ++ [entry] := List.prefix_refl _
  obtain ⟨names, hn, hv⟩ := h.named entry hmem
  refine ⟨names, ?_, h.declared entry hmem, ?_, ?_, hn, hv, h.fits entry hmem names hn,
    fun other ho names' hn' => ⟨h.apart entry hmem other (by simp [ho]) names names' hn hn',
      h.apart other (by simp [ho]) entry hmem names' names hn' hn⟩⟩
  · rcases h.count with hc | hc
    · simp at hc
    · rw [List.length_append, List.length_singleton] at hc
      omega
  · rw [← declaredSum_snoc]
    exact h.declaredTotal _ (by simp) hself
  · by_cases hz : entry.bytes.size = 0
    · exact .inl hz
    · have htotal := h.total done entry hself hz
      rw [contentSum_snoc] at htotal
      exact .inr ⟨h.size entry hmem hz, by omega⟩

lemma snoc_of_admits (h : Extractable config top done) (ha : Admits config top done entry names) :
    Extractable config top (done ++ [entry]) := by
  -- The names of the new entry are the given ones.
  have hnames (p : Location) (hp : entry.names? = some p) : names = p :=
    Option.some.inj (ha.named.symm.trans hp)
  refine ⟨⟨.inr ?_, forall_mem_snoc.2 ⟨h.declared, ha.declared⟩, fun front hne hp => ?_,
    forall_mem_snoc.2 ⟨h.size, fun hz => (ha.size.resolve_left hz).1⟩, fun front last hp hz => ?_,
    forall_mem_snoc.2 ⟨h.named, names, ha.named, ha.valid⟩, ?_⟩,
    forall_mem_snoc.2 ⟨h.fits, fun names' hn => hnames names' hn ▸ ha.fits⟩⟩
  · rw [List.length_append, List.length_singleton]
    have := ha.count
    omega
  · rcases List.prefix_concat_iff.1 hp with rfl | hp
    · rw [declaredSum_snoc]
      exact ha.declaredTotal
    · exact h.declaredTotal front hne hp
  · rcases List.prefix_concat_iff.1 hp with he | hp
    · obtain ⟨rfl, rfl⟩ := List.append_singleton_inj.1 he
      have := (ha.size.resolve_left hz).2
      rw [contentSum_snoc]
      omega
    · exact h.total front last hp hz
  · refine forall_mem_snoc.2 ⟨fun first hf => forall_mem_snoc.2 ⟨h.apart first hf, ?_⟩,
      forall_mem_snoc.2 ⟨fun second hs => ?_, ?_⟩⟩
    · intro p p' hp hp' hpre
      obtain rfl := hnames p' hp'
      exact (ha.apart first hf p hp).2 hpre
    · intro p p' hp hp' hpre
      obtain rfl := hnames p hp
      exact (ha.apart second hs p' hp').1 hpre
    · intro p p' hp hp' _
      exact (hnames p hp).symm.trans (hnames p' hp')

/-- One more entry asks for what is said about it, and nothing else. -/
lemma snoc : Extractable config top (done ++ [entry]) ↔
    Extractable config top done ∧ ∃ names, Admits config top done entry names := by
  constructor
  · intro h
    exact ⟨h.of_front (List.prefix_append _ _), h.admits_of_snoc⟩
  · rintro ⟨h, names, ha⟩
    exact h.snoc_of_admits ha

end Extractable

/-! ## The tree that is asked for -/

/-- The content of the last entry with given names. -/
def lastContent (entries : List ArchiveEntry) (names : Location) : Option ByteArray :=
  entries.reverse.findSome? fun entry =>
    if entry.names? = some names then some entry.bytes else none

/-- Whether names lead to an entry, or are those of one. -/
def leadsToEntry (entries : List ArchiveEntry) (names : Location) : Bool :=
  entries.any fun entry => entry.names?.any fun names' => names.isPrefixOf names'

/-- What stands below the extraction root under given names once entries are extracted. -/
def treeOf (entries : List ArchiveEntry) (names : Location) : Option Node :=
  match lastContent entries names with
  | some content => some (.file content)
  | none => if leadsToEntry entries names then some .directory else none

lemma leadsToEntry_iff : leadsToEntry done names = true ↔
    ∃ entry ∈ done, ∃ names', entry.names? = some names' ∧ names <+: names' := by
  rw [leadsToEntry, List.any_eq_true]
  constructor
  · rintro ⟨entry, hm, h⟩
    obtain ⟨names', hn, hp⟩ := Option.any_eq_true _ _ |>.1 h
    exact ⟨entry, hm, names', hn, List.isPrefixOf_iff_prefix.1 hp⟩
  · rintro ⟨entry, hm, names', hn, hp⟩
    exact ⟨entry, hm, by rw [hn]; simpa using hp⟩

lemma leadsToEntry_snoc (hn : entry.names? = some names) (other : Location) :
    leadsToEntry (done ++ [entry]) other = (leadsToEntry done other || other.isPrefixOf names) := by
  simp [leadsToEntry, hn]

lemma lastContent_snoc (hn : entry.names? = some names) (other : Location) :
    lastContent (done ++ [entry]) other =
      if other = names then some entry.bytes else lastContent done other := by
  rw [lastContent, List.reverse_append, List.reverse_singleton, List.singleton_append,
    List.findSome?_cons, hn]
  by_cases he : other = names
  · rw [if_pos (by rw [he]), if_pos he]
  · rw [if_neg fun hc => he (Option.some.inj hc).symm, if_neg he, lastContent]

/-- There is a content under given names exactly if there is an entry of these names. -/
lemma lastContent_eq_none : lastContent done names = none ↔
    ∀ entry ∈ done, entry.names? ≠ some names := by
  rw [lastContent, List.findSome?_eq_none_iff]
  simp

lemma treeOf_snoc (hn : entry.names? = some names) (other : Location) :
    treeOf (done ++ [entry]) other =
      if other = names then some (.file entry.bytes)
      else if other <+: names ∧ treeOf done other = none then some .directory
      else treeOf done other := by
  rw [treeOf, lastContent_snoc hn, leadsToEntry_snoc hn, treeOf]
  by_cases he : other = names
  · rw [if_pos he, if_pos he]
  · rw [if_neg he, if_neg he]
    cases lastContent done other with
    | some content => simp
    | none =>
      cases leadsToEntry done other <;> by_cases hp : other <+: names <;> simp [hp]

lemma treeOf_eq_directory (h : treeOf done names = some .directory) :
    leadsToEntry done names = true ∧ lastContent done names = none := by
  unfold treeOf at h
  split at h
  · cases h
  rename_i hnone
  split at h
  · exact ⟨by assumption, hnone⟩
  · cases h

/-- An entry of a new name is apart from the entries before it if a file can be put there: there is
none or a file under its names, and no file above. -/
lemma apart_iff_free (hadm : Extractable config top done) :
    (∀ other ∈ done, ∀ names', other.names? = some names' →
        (names <+: names' → names = names') ∧ (names' <+: names → names' = names)) ↔
      (treeOf done names ≠ some .directory) ∧
        ∀ above, above ≠ [] → above <+: names → above ≠ names →
          treeOf done above = none ∨ treeOf done above = some .directory := by
  constructor
  · intro hapart
    refine ⟨fun hd => ?_, fun above _ hp hne => ?_⟩
    · obtain ⟨hleads, hnone⟩ := treeOf_eq_directory hd
      obtain ⟨entry, hm, names', hn, hp⟩ := leadsToEntry_iff.1 hleads
      obtain rfl := (hapart entry hm names' hn).1 hp
      exact lastContent_eq_none.1 hnone entry hm hn
    · have hnone : lastContent done above = none :=
        lastContent_eq_none.2 fun entry hm hn => hne ((hapart entry hm above hn).2 hp)
      rw [treeOf, hnone]
      cases leadsToEntry done above <;> simp
  · rintro ⟨hself, hfree⟩ other hm names' hn
    refine ⟨fun hp => ?_, fun hp => ?_⟩
    · have hleads : leadsToEntry done names = true := leadsToEntry_iff.2 ⟨other, hm, names', hn, hp⟩
      have hsome : lastContent done names ≠ none := by
        intro hnone
        exact hself (by rw [treeOf, hnone]; simp [hleads])
      obtain ⟨entry, hentry⟩ := not_forall.1 (mt lastContent_eq_none.2 hsome)
      obtain ⟨he, hsame⟩ := Classical.not_imp.1 hentry
      exact hadm.apart entry he other hm names names' (Classical.not_not.1 hsame) hn hp
    · by_contra hne
      have hsome : lastContent done names' ≠ none := fun hnone =>
        lastContent_eq_none.1 hnone other hm hn
      obtain ⟨content, hc⟩ := Option.ne_none_iff_exists'.1 hsome
      have hplain := EntryPath.ofRaw_plain (ArchiveEntry.names?_eq_some.1 hn)
      have hfile : treeOf done names' = some (.file content) := by rw [treeOf, hc]
      rcases hfree names' hplain.1 hp hne with h | h
      · rw [hfile] at h
        cases h
      · rw [hfile] at h
        cases h

/-! ## Step and run -/

/-- The state of an extraction that has not failed so far. -/
structure Unpacked (base : FileSystem) (top : Location) (done : List ArchiveEntry) (tally : Tally)
    (fs : FileSystem) : Prop where
  holds : ∃ ledger, Holds base top ledger fs
  files : tally.files = done.length
  declared : tally.declared = declaredSum done
  written : tally.written = contentSum done
  tree : ∀ names, names ≠ [] → fs.get? (top ++ names) = treeOf done names

lemma checkDeclared_eq_ok {declared : Int} :
    checkDeclared config tally entry = .ok declared ↔
      tally.files + 1 ≤ config.maxFiles ∧ entry.declared ≤ config.maxFileBytes ∧
        tally.declared + entry.declared ≤ config.maxTotalBytes ∧
        declared = tally.declared + entry.declared := by
  rw [checkDeclared, ← ArchiveEntry.declared]
  split
  · simp; omega
  split
  · simp; omega
  split
  · simp; omega
  · simp; omega

/-- A place above an entry is above the extraction root or leads to the entry from there. -/
lemma cases_above {place : Location} (hne : names ≠ []) (h : place <+: (top ++ names).dropLast) :
    place <+: top ∨
      ∃ above, place = top ++ above ∧ above ≠ [] ∧ above <+: names ∧ above ≠ names := by
  obtain ⟨hp, hlt⟩ := (prefix_dropLast_iff (by simp [hne])).1 h
  rcases List.prefix_or_prefix_of_prefix hp (List.prefix_append top names) with hp' | ⟨above, rfl⟩
  · exact .inl hp'
  · by_cases hnil : above = []
    · exact .inl (by simp [hnil])
    · refine .inr ⟨above, rfl, hnil, (List.prefix_append_right_inj top).1 hp, ?_⟩
      rintro rfl
      exact hlt rfl

lemma below_dropLast_iff {other : Location} (hne : names ≠ []) :
    top ++ other <+: (top ++ names).dropLast ↔ other <+: names ∧ other ≠ names := by
  rw [prefix_dropLast_iff (by simp [hne]), List.prefix_append_right_inj]
  simp

namespace Unpacked

variable {fs₁ fs₂ : FileSystem}

/-- Directories and a file that are added for an entry complete the tree that is asked for. -/
lemma tree_snoc (h : Unpacked base top done tally fs) (hn : entry.names? = some names)
    (hne : names ≠ []) (hf : fs.FilledTo fs₁ (top ++ names).dropLast)
    (hp : Put fs₁ fs₂ (top ++ names) entry.bytes) {other : Location} (ho : other ≠ []) :
    fs₂.get? (top ++ other) = treeOf (done ++ [entry]) other := by
  rw [treeOf_snoc hn, hp.get?, hf.get?, h.tree other ho]
  by_cases he : other = names
  · rw [if_pos (by rw [he]), if_pos he]
  · have he' : top ++ other ≠ top ++ names := fun hc => he (List.append_cancel_left hc)
    rw [if_neg he', if_neg he]
    simp only [below_dropLast_iff hne, he, ne_eq, not_false_eq_true, and_true]

/-- Where directories and a file could be added for an entry, it is apart from those before it. -/
lemma apart (h : Unpacked base top done tally fs) (hadm : Extractable config top done)
    (hne : names ≠ []) (hf : fs.FilledTo fs₁ (top ++ names).dropLast)
    (ho : fs.get? (top ++ names) = none ∨ ∃ old, fs.get? (top ++ names) = some (.file old)) :
    ∀ other ∈ done, ∀ names', other.names? = some names' →
      (names <+: names' → names = names') ∧ (names' <+: names → names' = names) := by
  refine (apart_iff_free hadm).2 ⟨fun hd => ?_, fun above hnil hp hlt => ?_⟩
  · rw [← h.tree names hne] at hd
    rcases ho with hnone | ⟨old, hold⟩
    · rw [hnone] at hd
      cases hd
    · rw [hold] at hd
      cases hd
  · rw [← h.tree above hnil]
    exact hf.free ((below_dropLast_iff hne).2 ⟨hp, hlt⟩)

/-- For an entry with proper names that is apart from those before it, directories and a file can be
added. -/
lemma room (h : Unpacked base top done tally fs) (hadm : Extractable config top done)
    (hne : names ≠ []) (hv : ∀ name ∈ names, ValidName name)
    (hs : (Location.toPath (top ++ names)).utf8ByteSize ≤ maxPathBytes)
    (hapart : ∀ other ∈ done, ∀ names', other.names? = some names' →
      (names <+: names' → names = names') ∧ (names' <+: names → names' = names)) :
    Location.Utterable (top ++ names) ∧ fs.Clear (top ++ names).dropLast ∧
      (fs.get? (top ++ names) = none ∨ ∃ old, fs.get? (top ++ names) = some (.file old)) := by
  obtain ⟨ledger, hholds⟩ := h.holds
  obtain ⟨hself, hfree⟩ := (apart_iff_free hadm).1 hapart
  have hvalid : ∀ name ∈ top ++ names, ValidName name := by
    intro name hm
    rcases List.mem_append.1 hm with ht | ht
    · exact validName_of_get? hholds.isDirectory ht
    · exact hv name ht
  have huttered : Location.Utterable (top ++ names) := by
    refine ⟨fun hz => ?_, hs⟩
    obtain ⟨name, hm, hz⟩ := Location.zero_mem_toPath.1 hz
    exact (hvalid name hm).zero_notMem hz
  refine ⟨huttered, ⟨huttered.upper (List.dropLast_prefix _),
    fun name hm => hvalid name ((List.dropLast_prefix _).subset hm), fun place hp => ?_⟩, ?_⟩
  · rcases cases_above hne hp with hp | ⟨above, rfl, hnil, hp, hlt⟩
    · exact .inr (isDirectory_above hholds.isDirectory hp)
    · rw [isDirectory, h.tree above hnil]
      exact hfree above hnil hp hlt
  · rw [h.tree names hne]
    cases hnode : treeOf done names with
    | none => exact .inl rfl
    | some node =>
      rcases hholds.inside names node (by rw [h.tree names hne, hnode]) with rfl | ⟨old, rfl, -⟩
      · exact absurd hnode hself
      · exact .inr ⟨old, rfl⟩

end Unpacked

/-- An entry is extracted after others only if it is admitted after them. -/
lemma extractEntry_ok {after : FileSystem} (hb : Base base root top)
    (hu : Unpacked base top done tally fs) (hadm : Extractable config top done)
    (hr : entry.Readable)
    (h : (extractEntry config root tally entry).on fs = (.ok tally', after)) :
    (∃ names, Admits config top done entry names) ∧
      Unpacked base top (done ++ [entry]) tally' after := by
  obtain ⟨ledger, hholds⟩ := hu.holds
  have hrun := extractEntry_run config tally entry hholds hb
  rw [h] at hrun
  generalize hout : ((.ok tally', after) : Except Failure Tally × FileSystem) = outcome at hrun
  cases hrun with
  | refused => cases hout
  | blocked => cases hout
  | @written declared names stream content stop fs₁ fs₂ hd hn hc ht hf ho hp huttered =>
    obtain ⟨stream', hc', hread⟩ := hr
    obtain rfl := Except.ok.inj (hc.symm.trans hc')
    obtain rfl : stop = none := by
      cases stop with
      | none => rfl
      | some failure => cases hout
    obtain ⟨he, rfl⟩ := Prod.mk.inj hout
    obtain rfl := Except.ok.inj he
    have hname : entry.names? = some names := ArchiveEntry.names?_eq_some.2 hn
    have hne := (EntryPath.ofRaw_plain hn).1
    obtain ⟨rfl, hready⟩ := (takeIn_readable entry.path hc hread).1 ht
    rw [hu.written] at hready
    obtain ⟨hcount, hsize, htotal, rfl⟩ := checkDeclared_eq_ok.1 hd
    have hself : after.get? (top ++ names) = some (.file entry.bytes) := by
      rw [hp.get?, if_pos rfl]
    rw [hu.files] at hcount
    rw [hu.declared] at htotal
    refine ⟨⟨names, hcount, hsize, htotal, hready, hname, fun name hm => ?_, huttered.size_le,
      hu.apart hadm hne hf ho⟩, ?_⟩
    · exact validName_of_get? hself (by simp [hm])
    · refine ⟨⟨_, (hholds.filled hf (List.dropLast_prefix _)).put hp hne⟩, ?_, ?_, ?_,
        fun other ho => hu.tree_snoc hname hne hf hp ho⟩
      · simp [hu.files]
      · rw [declaredSum_snoc, hu.declared]
      · rw [contentSum_snoc, hu.written]
        simp

/-- An entry that is admitted after others is extracted. -/
lemma extractEntry_of_admits (hb : Base base root top) (hu : Unpacked base top done tally fs)
    (hadm : Extractable config top done) (hr : entry.Readable)
    (ha : Admits config top done entry names) :
    ∃ tally', ((extractEntry config root tally entry).on fs).1 = .ok tally' := by
  obtain ⟨ledger, hholds⟩ := hu.holds
  obtain ⟨stream, hc, hread⟩ := hr
  have hn := ArchiveEntry.names?_eq_some.1 ha.named
  have hne := (EntryPath.ofRaw_plain hn).1
  obtain ⟨huttered, hclear, hroom⟩ := hu.room hadm hne ha.valid ha.fits ha.apart
  have hdeclared : checkDeclared config tally entry = .ok (tally.declared + entry.declared) := by
    refine checkDeclared_eq_ok.2 ⟨?_, ha.declared, ?_, rfl⟩
    · rw [hu.files]
      exact ha.count
    · rw [hu.declared]
      exact ha.declaredTotal
  have ht : takeIn config entry.path tally.written stream.failure .empty stream.chunks =
      (entry.bytes, none) := by
    refine (takeIn_readable entry.path hc hread).2 ⟨rfl, ?_⟩
    rw [hu.written]
    exact ha.size
  rw [on_extractEntry_clear hholds hb hdeclared hn huttered ha.valid hclear hroom, contentResult,
    hc]
  dsimp only
  rw [ht]
  exact ⟨_, rfl⟩

/-- The run over entries: it succeeds exactly if the entries are extractable, and then it has
unpacked them all. -/
theorem extractEntries_ok_iff (config : Config) (rest : List ArchiveEntry)
    (hb : Base base root top) (hu : Unpacked base top done tally fs)
    (hadm : Extractable config top done) (hr : ∀ entry ∈ rest, entry.Readable)
    (hd : ∀ entry ∈ rest, entry.isDirectory = false) :
    (Extractable config top (done ++ rest) ↔
        ∃ tally', ((extractEntries config root tally rest).on fs).1 = .ok tally') ∧
      ∀ tally', ((extractEntries config root tally rest).on fs).1 = .ok tally' →
        Unpacked base top (done ++ rest) tally'
          ((extractEntries config root tally rest).on fs).2 := by
  induction rest generalizing done tally fs with
  | nil =>
    rw [List.append_nil, extractEntries]
    constructor
    · exact ⟨fun _ => ⟨tally, rfl⟩, fun _ => hadm⟩
    · intro tally' he
      obtain rfl := Except.ok.inj he
      exact hu
  | cons entry rest ih =>
    have hentry := hr entry (by simp)
    have happ : done ++ entry :: rest = (done ++ [entry]) ++ rest := by simp
    rw [extractEntries, if_neg (by simp [hd entry]), Action.on_bind, happ]
    rcases hrun : (extractEntry config root tally entry).on fs with ⟨failure | tally₁, fs₁⟩
    · dsimp only
      refine ⟨⟨fun h => ?_, ?_⟩, fun tally' he => by cases he⟩
      · obtain ⟨-, names, ha⟩ := Extractable.snoc.1 (h.of_front (List.prefix_append _ _))
        obtain ⟨tally', hok⟩ := extractEntry_of_admits hb hu hadm hentry ha
        rw [hrun] at hok
        cases hok
      · rintro ⟨tally', he⟩
        cases he
    · obtain ⟨hadmits, hu₁⟩ := extractEntry_ok hb hu hadm hentry hrun
      exact ih hu₁ (Extractable.snoc.2 ⟨hadm, hadmits⟩)
        (fun other ho => hr other (List.mem_cons_of_mem _ ho))
        (fun other ho => hd other (List.mem_cons_of_mem _ ho))

/-- Directories in a listing are passed over. -/
lemma extractEntries_files (tally : Tally) (entries : List ArchiveEntry) :
    extractEntries config root tally entries =
      extractEntries config root tally (entries.filter fun entry => !entry.isDirectory) := by
  induction entries generalizing tally with
  | nil => rfl
  | cons entry entries ih =>
    rw [extractEntries, List.filter_cons]
    cases hd : entry.isDirectory with
    | true => simp [ih]
    | false => simp [extractEntries, hd, ih]

lemma Unpacked.start (hb : Base base root top) : Unpacked base top [] .zero base :=
  ⟨⟨[], .start hb⟩, rfl, rfl, rfl, fun names hne => hb.fresh names hne⟩

end Extraction

open Extraction

variable {config : Config} {listing : Listing} {root : String} {fs base : FileSystem}

/-- How an extraction below a root that can be made ends. -/
lemma extract_of_makePath (config : Config)
    (hmade : (Action.makePath false (PurePath.ofString root)).on fs = (.ok (), base))
    (hlist : listing.failure = none) (hread : ∀ entry ∈ listing.files, entry.Readable) :
    ∃ top, Base base (PurePath.ofString root).toString top ∧
      (Extractable config top listing.files ∧
          (∃ tally, ((extract config listing root).on fs).1 = .ok tally.files ∧
            Unpacked base top listing.files tally ((extract config listing root).on fs).2) ∨
        ¬ Extractable config top listing.files ∧
          ∃ failure, ((extract config listing root).on fs).1 = .error failure) := by
  obtain ⟨fs₁, -, ⟨failure, hfail, -⟩ | ⟨top, hv, hb, hrun, hextract⟩⟩ :=
    extract_run config listing root fs
  · rw [hmade] at hfail
    cases hfail
  rw [hmade] at hrun
  obtain ⟨-, rfl⟩ := Prod.mk.inj hrun
  obtain ⟨hiff, htree⟩ := extractEntries_ok_iff config listing.files hb
    (.start hb) (.nil config top) hread fun entry hm => by
      simpa using (List.mem_filter.1 hm).2
  rw [List.nil_append] at hiff htree
  rw [Listing.files] at hiff htree ⊢
  rw [← extractEntries_files] at hiff htree
  refine ⟨top, hb, ?_⟩
  rw [hextract, hlist]
  generalize (extractEntries config (PurePath.ofString root).toString .zero listing.entries).on
    (fs₁.insert top .directory) = outcome at hiff htree
  obtain ⟨failure | tally, after⟩ := outcome
  · refine .inr ⟨fun h => ?_, failure, rfl⟩
    obtain ⟨tally, he⟩ := hiff.1 h
    cases he
  · exact .inl ⟨hiff.2 ⟨tally, rfl⟩, tally, rfl, htree tally rfl⟩

/-- An entry that hands out a content in portions of the usual size. -/
def ArchiveEntry.ofBytes (path : String) (declaredSize : Option Int) (content : ByteArray) :
    ArchiveEntry :=
  ⟨path, declaredSize, false, fun _ => .ok (.ofBytes content)⟩

lemma ArchiveEntry.readable_ofBytes (path : String) (declaredSize : Option Int)
    (content : ByteArray) :
    (ArchiveEntry.ofBytes path declaredSize content).Readable :=
  ⟨_, rfl, (Stream.readable_ofBytes content).1⟩

lemma ArchiveEntry.bytes_ofBytes (path : String) (declaredSize : Option Int) (content : ByteArray) :
    (ArchiveEntry.ofBytes path declaredSize content).bytes = content :=
  (Stream.readable_ofBytes content).2

/-- Two entries of one name, the first with a declared size. -/
def sameName : Listing where
  entries := [.ofBytes "a/b" (some 1) ⟨#[1]⟩, .ofBytes "a/b" none ⟨#[2, 3]⟩]
  failure := none

lemma readable_sameName : ∀ entry ∈ sameName.files, entry.Readable := by
  intro entry he
  have hm : entry ∈ sameName.entries := List.mem_of_mem_filter he
  rcases List.mem_cons.1 hm with rfl | hm
  · exact ArchiveEntry.readable_ofBytes _ _ _
  · obtain rfl := List.mem_singleton.1 hm
    exact ArchiveEntry.readable_ofBytes _ _ _

/-- A name of a given length. -/
def longName (length : Nat) : String := String.ofList (List.replicate length 'a')

lemma mem_longName {length : Nat} {c : Char} (h : c ∈ (longName length).toList) : c = 'a' := by
  rw [longName, String.toList_ofList] at h
  exact List.eq_of_mem_replicate h

lemma size_longName (length : Nat) : (longName length).utf8ByteSize = length := by
  induction length with
  | zero => rfl
  | succ length ih =>
    have htext : longName (length + 1) = longName length ++ "a" := by
      rw [longName, longName, List.replicate_succ', String.ofList_append]
    rw [htext, String.utf8ByteSize_append, ih]
    rfl

lemma validName_longName {length : Nat} (hpos : 2 < length) (hle : length ≤ maxNameBytes) :
    ValidName (longName length) := by
  have hshort (other : String) (ho : other.utf8ByteSize ≤ 2) : longName length ≠ other := by
    intro he
    rw [← he, size_longName] at ho
    omega
  refine ⟨hshort _ (by decide), hshort _ (by decide), hshort _ (by decide), fun hm => ?_,
    fun hm => ?_, by rwa [size_longName]⟩
  · exact absurd (mem_longName hm) (by decide)
  · exact absurd (mem_longName hm) (by decide)

/-- Twenty directories one inside the other. -/
def longPath : Location := List.replicate 20 (longName 250)

/-- A single byte at the end of the path of long names. -/
def deepEntry : ArchiveEntry := .ofBytes (Path.ofSegments longPath) (some 1) ⟨#[120]⟩

lemma eq_longName {name : String} (h : name ∈ longPath) : name = longName 250 :=
  List.eq_of_mem_replicate h

lemma validName_of_mem_longPath {name : String} (h : name ∈ longPath) : ValidName name := by
  rw [eq_longName h]
  exact validName_longName (by decide) (by decide)

lemma startsWithDrive_longName (length : Nat) :
    EntryPath.startsWithDrive (longName length) = false := by
  rw [EntryPath.startsWithDrive]
  split
  · rename_i letter rest he
    have hcolon : ':' ∈ (longName length).toList := by simp [he]
    exact absurd (mem_longName hcolon) (by decide)
  · rfl

lemma names?_deepEntry : deepEntry.names? = some longPath := by
  rw [ArchiveEntry.names?_eq_some]
  refine EntryPath.ofRaw_ofSegments (fun name hn => (validName_of_mem_longPath hn).plain)
    (fun name hn hb => ?_) (startsWithDrive_longName 250)
  rw [eq_longName hn] at hb
  exact absurd (mem_longName hb) (by decide)

lemma prefix_singleton {entry : ArchiveEntry} {front : List ArchiveEntry} (h : front <+: [entry]) :
    front = [] ∨ front = [entry] := by
  have hconcat : front <+: [] ++ [entry] := h
  rcases List.prefix_concat_iff.1 hconcat with rfl | hnil
  · exact .inr rfl
  · exact .inl (List.prefix_nil.1 hnil)

lemma admissible_deepEntry : Admissible {} [deepEntry] where
  count := .inr (by decide)
  declared := by
    intro entry he
    obtain rfl := List.mem_singleton.1 he
    decide
  declaredTotal := by
    intro front hne hp
    rcases prefix_singleton hp with rfl | rfl
    · exact absurd rfl hne
    · decide
  size := by
    intro entry he _
    obtain rfl := List.mem_singleton.1 he
    rw [deepEntry, ArchiveEntry.bytes_ofBytes]
    decide
  total := by
    intro front entry hp _
    rcases prefix_singleton hp with he | he
    · exact absurd he (by simp)
    · rw [he, contentSum, List.map_singleton, deepEntry, ArchiveEntry.bytes_ofBytes]
      decide
  named := by
    intro entry he
    obtain rfl := List.mem_singleton.1 he
    exact ⟨longPath, names?_deepEntry, fun name hn => validName_of_mem_longPath hn⟩
  apart := by
    intro entry he other ho names names' hn hn' _
    obtain rfl := List.mem_singleton.1 he
    obtain rfl := List.mem_singleton.1 ho
    exact Option.some.inj (hn.symm.trans hn')

end SourceAtlas
