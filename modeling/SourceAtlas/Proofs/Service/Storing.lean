import SourceAtlas.Proofs.Extraction.Readable
import SourceAtlas.Proofs.Files.Exactness
import SourceAtlas.Service.Upload

/-!
# Storing an upload

An upload is read in portions, and what is counted is held against the limit twice: before a
portion is written, and when the reading has come to an end.  The two tests agree however the
content is split.  If it is within the limit, all of it is written and counted
(`takeUpload_of_le`), and if it is not, the count goes past the limit at some portion, or at the
very end if there is none (`lt_takeUpload`).

Hence a content is stored in a new file if and only if it is within the limit.  Otherwise
the file is removed again, and nothing is left of it.  Where something stands already,
nothing is written (`storePortions_exact`).
-/

namespace SourceAtlas

open FileSystem SourceAtlas.Action Extraction

variable {fs fs' fs₁ created : FileSystem} {dir name text : String} {place : Location}
  {content taken : ByteArray} {chunks : List ByteArray} {limit : Int}

/-! ## Portions and the limit -/

lemma takeUpload_of_le (hc : ∀ chunk ∈ chunks, chunk.size ≠ 0)
    (h : ((Stream.joined taken chunks).size : Int) ≤ limit) :
    takeUpload limit taken chunks =
      (Stream.joined taken chunks, (Stream.joined taken chunks).size) := by
  induction chunks generalizing taken with
  | nil => rfl
  | cons chunk chunks ih =>
    have hle := Stream.size_le_joined (taken ++ chunk) chunks
    rw [ByteArray.size_append] at hle
    rw [Stream.joined_cons] at h ⊢
    rw [takeUpload, if_neg (hc chunk (List.mem_cons_self ..)), if_neg (by omega)]
    exact ih (fun other ho => hc other (List.mem_cons_of_mem _ ho)) h

lemma lt_takeUpload (hc : ∀ chunk ∈ chunks, chunk.size ≠ 0)
    (h : limit < (Stream.joined taken chunks).size) :
    limit < (takeUpload limit taken chunks).2 := by
  induction chunks generalizing taken with
  | nil => exact h
  | cons chunk chunks ih =>
    rw [takeUpload, if_neg (hc chunk (List.mem_cons_self ..))]
    split
    · next hpast =>
      push_cast
      exact hpast
    · exact ih (fun other ho => hc other (List.mem_cons_of_mem _ ho)) h

/-! ## A new file -/

namespace Extraction.Put

lemma changesOnly (h : Put fs fs' place content) : fs.ChangesOnly fs' place := by
  constructor
  · exact h.workingDirectory
  · intro location hp
    rw [h.get?, if_neg]
    rintro rfl
    exact hp (List.prefix_refl _)

lemma get?_self (h : Put fs fs' place content) : fs'.get? place = some (.file content) := by
  rw [h.get?, if_pos rfl]

lemma alike (h : Put fs fs₁ place content) (ha : fs₁.Alike fs') : Put fs fs' place content :=
  ⟨ha.workingDirectory.trans h.workingDirectory,
    fun location => (ha.get? location).trans (h.get? location)⟩

lemma get?_eq_some {location : Location} {node : Node} (h : Put fs fs' place content)
    (hn : fs'.get? location = some node) (hf : node ≠ .file content) :
    fs.get? location = some node := by
  rw [h.get?] at hn
  split at hn
  · exact absurd (Option.some.inj hn).symm hf
  · exact hn

end Extraction.Put

/-- A new file with a content. -/
lemma put_insert (hv : fs.Vacant place) (content : ByteArray) :
    Put fs ((fs.insert place (.file .empty)).overwrite place content) place content := by
  have hself : (fs.insert place (.file .empty)).get? place = some (.file .empty) := by
    rw [get?_insert hv, if_pos rfl]
  constructor
  · exact (insert_grows hv).workingDirectory
  · intro location
    by_cases he : location = place
    · rw [if_pos he, he, get?_overwrite_self hself]
    · rw [if_neg he, get?_overwrite_of_ne he, get?_insert hv, if_neg he]

/-- A path that ends in a name creates a file where nothing stands, and leads to it afterwards. -/
lemma createNew_eq_ok (hb : PlainName (Path.base text))
    (h : fs.createNew text = .ok (place, created)) :
    fs.get? place = none ∧ ∀ content, Put fs (created.overwrite place content) place content ∧
      (created.overwrite place content).locate false text = .ok place := by
  rw [createNew, lookup_of_base hb] at h
  split at h
  · cases h
  · cases h
  rename_i parent name hw
  obtain ⟨rfl, rfl⟩ := Prod.mk.inj (Except.ok.inj h)
  have hv := walkText_vacant hw
  refine ⟨hv.get?, fun content => ?_⟩
  have hput := put_insert hv content
  have hgrown := hput.changesOnly.grows (.refl fs) hv.get?
  refine ⟨hput, ?_⟩
  rw [locate, lookup_of_base hb, walkText_filled hgrown hput.get?_self (by simp) hw]

/-! ## Storing -/

/-- An upload within the limit is written as it is. -/
lemma storePortions_of_le (hnew : fs.createNew text = .ok (place, created))
    (hc : ∀ chunk ∈ chunks, chunk.size ≠ 0)
    (hs : ((Stream.joined .empty chunks).size : Int) ≤ limit) :
    (storePortions text chunks limit).on fs =
      (.ok (.ok (Stream.joined .empty chunks).size),
        created.overwrite place (Stream.joined .empty chunks)) := by
  rw [storePortions, on_bind, on_changeAt, hnew]
  dsimp only
  rw [takeUpload_of_le hc hs]
  dsimp only
  rw [on_bind_ok (on_modify _), if_neg (Int.not_lt.2 hs)]
  rfl

/-- An upload that exceeds the limit is refused if what was written of it can be removed. -/
lemma storePortions_of_lt (hnew : fs.createNew text = .ok (place, created))
    (hc : ∀ chunk ∈ chunks, chunk.size ≠ 0) (hs : limit < (Stream.joined .empty chunks).size) :
    ∃ taken, (storePortions text chunks limit).on fs =
      match (removePath (some text)).on (created.overwrite place taken) with
      | (.ok _, fs') => (.ok (.error (.tooLarge limit)), fs')
      | (.error failure, fs') => (.error failure, fs') := by
  have hpast := lt_takeUpload hc hs
  refine ⟨(takeUpload limit .empty chunks).1, ?_⟩
  rw [storePortions, on_bind, on_changeAt, hnew]
  dsimp only
  rw [on_bind_ok (on_modify _), if_pos hpast, on_bind, on_discard]
  rcases (removePath (some text)).on _ with ⟨failure | removed, fs'⟩ <;> rfl

lemma storePortions_of_error {e : FileError} (hnew : fs.createNew text = .error e)
    (chunks : List ByteArray) (limit : Int) :
    (storePortions text chunks limit).on fs = (.error (.file e), fs) := by
  rw [storePortions, on_bind, on_changeAt, hnew]

/-- An upload is read in portions that make up its content. -/
lemma portions_storeUpload (content : ByteArray) :
    (∀ chunk ∈ Stream.cut uploadPortion content, chunk.size ≠ 0) ∧
      Stream.joined .empty (Stream.cut uploadPortion content) = content := by
  have hpos : 0 < uploadPortion := by decide
  exact ⟨fun chunk hm => Stream.size_ne_zero_of_mem_cutFrom hpos hm, Stream.joined_cut hpos content⟩

lemma storeUpload_of_le (hnew : fs.createNew text = .ok (place, created))
    (hs : (content.size : Int) ≤ limit) :
    (storeUpload text content limit).on fs =
      (.ok (.ok content.size), created.overwrite place content) := by
  obtain ⟨hc, hjoined⟩ := portions_storeUpload content
  rw [← hjoined] at hs
  have hrun := storePortions_of_le hnew hc hs
  rwa [hjoined] at hrun

lemma storeUpload_of_lt (hnew : fs.createNew text = .ok (place, created))
    (hs : limit < content.size) :
    ∃ taken, (storeUpload text content limit).on fs =
      match (removePath (some text)).on (created.overwrite place taken) with
      | (.ok _, fs') => (.ok (.error (.tooLarge limit)), fs')
      | (.error failure, fs') => (.error failure, fs') := by
  obtain ⟨hc, hjoined⟩ := portions_storeUpload content
  exact storePortions_of_lt hnew hc (by rwa [hjoined])

/-! ## Storing in a directory -/

/-- The stored file is removed by its path. -/
lemma removePath_put (h : fs.LeadsTo dir place) (ht : EntryText dir name text) (hn : PlainName name)
    (hc : checkText text = .ok ()) (hnone : fs.get? (place ++ [name]) = none)
    (hp : Put fs fs' (place ++ [name]) content) :
    fs.Alike ((removePath (some text)).on fs').2 := by
  have hgrown := hp.changesOnly.grows (.refl fs) hnone
  obtain ⟨fs'', hrun, hcleared⟩ := removePath_file (h.grows hgrown) ht hn hc hp.get?_self
  rw [hrun]
  exact hcleared.alike hp.changesOnly hnone

/-- An upload is stored where nothing stands, or nothing is left of it. -/
lemma storeUpload_cases (h : fs.LeadsTo dir place) (ht : EntryText dir name text)
    (hn : PlainName name) (content : ByteArray) (limit : Int) :
    (∃ result fs', (storeUpload text content limit).on fs = (result, fs') ∧
        (∀ size, result ≠ .ok (.ok size)) ∧ fs.Alike fs') ∨
      ∃ fs', (storeUpload text content limit).on fs = (.ok (.ok content.size), fs') ∧
        (content.size : Int) ≤ limit ∧ checkText text = .ok () ∧
        fs.get? (place ++ [name]) = none ∧ Put fs fs' (place ++ [name]) content := by
  rcases h.createNew_cases ht hn with ⟨e, hnew⟩ | ⟨hv, hc, hnew⟩
  · exact .inl ⟨_, fs, storePortions_of_error hnew _ limit, by simp, .refl fs⟩
  · by_cases hs : (content.size : Int) ≤ limit
    · exact .inr ⟨_, storeUpload_of_le hnew hs, hs, hc, hv.get?, put_insert hv content⟩
    · obtain ⟨taken, hrun⟩ := storeUpload_of_lt hnew (Int.not_le.1 hs)
      have hgone := removePath_put h ht hn hc hv.get? (put_insert hv taken)
      rw [hrun]
      generalize (removePath (some text)).on _ = outcome at hgone
      obtain ⟨failure | removed, fs'⟩ := outcome
      · exact .inl ⟨_, fs', rfl, by simp, hgone⟩
      · exact .inl ⟨_, fs', rfl, by simp, hgone⟩

/-- In a directory that is not found, nothing is stored. -/
lemma storeUpload_unfound (hne : dir ≠ "") (hn : PlainName name)
    (hno : ∀ place, ¬ fs.LeadsTo dir place) (content : ByteArray) (limit : Int) :
    ∃ failure, (storeUpload (Path.append dir name) content limit).on fs = (.error failure, fs) := by
  have ht := entryText_append hne hn
  have hnew : ∃ e, fs.createNew (Path.append dir name) = .error e := by
    rw [createNew, lookup, ht.route]
    cases hw : fs.walkText false (Path.append dir name) (bareRoute (Path.append dir name)) with
    | error e => exact ⟨e, rfl⟩
    | ok arrival =>
      obtain ⟨-, -, hs⟩ := checkText_eq_ok_iff.1 (walkText_eq_ok_iff.1 hw).1
      have hsize := (Path.size_le_append hne hn.2.2.2).trans hs
      obtain ⟨place, h⟩ := LeadsTo.of_arrival hne hsize ht.toNamedText hw
      exact absurd h (hno place)
  obtain ⟨e, hnew⟩ := hnew
  exact ⟨_, storePortions_of_error hnew _ limit⟩

/-! ## Exactness -/

/-- How an upload ends that is stored as a whole or not at all. -/
structure StoresExactly (fs : FileSystem) (text : String) (content : ByteArray) (limit : Int)
    (outcome : Except Failure (Except Refusal Nat) × FileSystem) : Prop where
  /-- Where something stands, be it a link that leads nowhere, nothing is stored. -/
  occupied : ∀ place, fs.locate false text = .ok place →
    outcome = (.error (.file (.os .exists)), fs)
  /-- Where no file can be created, nothing changes. -/
  blocked : ∀ e, fs.createNew text = .error e → outcome = (.error (.file e), fs)
  /-- What is within the limit is stored in a new file. -/
  stored : ∀ place created, fs.createNew text = .ok (place, created) →
    (content.size : Int) ≤ limit →
    outcome.1 = .ok (.ok content.size) ∧ fs.get? place = none ∧ Put fs outcome.2 place content ∧
      outcome.2.locate false text = .ok place
  /-- What is not is refused, and leaves nothing. -/
  refused : ∀ place created, fs.createNew text = .ok (place, created) → limit < content.size →
    outcome.1 = .ok (.error (.tooLarge limit)) ∧ (Refusal.tooLarge limit).status = 413 ∧
    fs.Alike outcome.2

/-- However an upload is split into portions, it is stored exactly. -/
theorem storePortions_exact (fs : FileSystem) (text : String) (content : ByteArray)
    (chunks : List ByteArray) (limit : Int) (hb : PlainName (Path.base text))
    (hc : ∀ chunk ∈ chunks, chunk.size ≠ 0) (hcontent : Stream.joined .empty chunks = content) :
    StoresExactly fs text content limit ((storePortions text chunks limit).on fs) := by
  subst hcontent
  constructor
  · intro place hl
    have hnew : fs.createNew text = .error (.os .exists) := by
      rw [createNew, lookup_of_locate hl]
    exact storePortions_of_error hnew chunks limit
  · intro e hnew
    exact storePortions_of_error hnew chunks limit
  · intro place created hnew hs
    obtain ⟨hnone, hput⟩ := createNew_eq_ok hb hnew
    rw [storePortions_of_le hnew hc hs]
    exact ⟨rfl, hnone, hput _⟩
  · intro place created hnew hs
    obtain ⟨hnone, hput⟩ := createNew_eq_ok hb hnew
    obtain ⟨taken, hrun⟩ := storePortions_of_lt hnew hc hs
    obtain ⟨hwritten, hfound⟩ := hput taken
    have hfile : ¬ (created.overwrite place taken).isDirectory place := by
      rw [isDirectory, hwritten.get?_self]
      simp
    obtain ⟨-, -, hplace, -⟩ := exists_node_of_base hb hfound
    rw [hrun, removePath_of_not_directory hb hfound hfile]
    exact ⟨rfl, rfl, (cleared_eraseTree _ hplace).alike hwritten.changesOnly hnone⟩

/-- A directory with a file. -/
def shelvedFiles : FileSystem :=
  ((FileSystem.empty [] ⟨0⟩).insert ["u"] .directory).insert ["u", "a.zip"] (.file .empty)

/-- The second of two portions goes past the limit. -/
theorem storePortions_exact_split :
    PlainName (Path.base "u/b.zip") ∧ (∀ chunk ∈ [⟨#[1, 2]⟩, ⟨#[3]⟩], ByteArray.size chunk ≠ 0) ∧
      Stream.joined .empty [⟨#[1, 2]⟩, ⟨#[3]⟩] = ⟨#[1, 2, 3]⟩ ∧
      StoresExactly shelvedFiles "u/b.zip" ⟨#[1, 2, 3]⟩ 2
        ((storePortions "u/b.zip" [⟨#[1, 2]⟩, ⟨#[3]⟩] 2).on shelvedFiles) := by
  have hb : PlainName (Path.base "u/b.zip") := ValidName.plain (by decide +kernel)
  have hc : ∀ chunk ∈ [⟨#[1, 2]⟩, ⟨#[3]⟩], ByteArray.size chunk ≠ 0 := by decide +kernel
  have hjoined : Stream.joined .empty [⟨#[1, 2]⟩, ⟨#[3]⟩] = ⟨#[1, 2, 3]⟩ := by decide +kernel
  exact ⟨hb, hc, hjoined, storePortions_exact shelvedFiles _ _ _ 2 hb hc hjoined⟩

end SourceAtlas
