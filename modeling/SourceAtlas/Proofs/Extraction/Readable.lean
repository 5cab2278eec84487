import SourceAtlas.Proofs.Extraction.Invariant

/-!
# Entries that can be read

What an extraction gets to see of an entry: its names below the root
(`ArchiveEntry.names?`), its declared size, and its content, which is all portions put
together if reading them does not fail (`ArchiveEntry.Readable`).  A content that is cut
into portions of the usual size is one (`Stream.readable_ofBytes`).

For a readable entry, taking its content in portion by portion succeeds if and only if the whole
of it is within the limits (`takeIn_eq_none_iff`): what the last portion brings is the most
there ever is.
-/

namespace SourceAtlas

/-- Portions put together, after bytes that are there already. -/
def Stream.joined (taken : ByteArray) (chunks : List ByteArray) : ByteArray :=
  chunks.foldl (· ++ ·) taken

/-- A stream that is read to its end without failing. -/
structure Stream.Readable (stream : Stream) : Prop where
  failure : stream.failure = none
  portions : ∀ chunk ∈ stream.chunks, chunk.size ≠ 0

namespace ArchiveEntry

/-- The names that lead to an entry below the extraction root, if its name is accepted. -/
def names? (entry : ArchiveEntry) : Option Location :=
  (EntryPath.ofRaw entry.path).toOption

/-- The declared size; none counts as zero. -/
def declared (entry : ArchiveEntry) : Int :=
  entry.declaredSize.getD 0

/-- The content of an entry as far as it can be read. -/
def bytes (entry : ArchiveEntry) : ByteArray :=
  match entry.content () with
  | .ok stream => Stream.joined .empty stream.chunks
  | .error _ => .empty

/-- An entry that is read to its end without failing. -/
def Readable (entry : ArchiveEntry) : Prop :=
  ∃ stream, entry.content () = .ok stream ∧ stream.Readable

lemma names?_eq_some {entry : ArchiveEntry} {names : Location} :
    entry.names? = some names ↔ EntryPath.ofRaw entry.path = .ok names := by
  unfold names?
  cases EntryPath.ofRaw entry.path <;> simp [Except.toOption]

end ArchiveEntry

namespace Stream

variable {taken chunk : ByteArray} {chunks : List ByteArray}

lemma joined_cons : joined taken (chunk :: chunks) = joined (taken ++ chunk) chunks := rfl

lemma size_le_joined (taken : ByteArray) (chunks : List ByteArray) :
    taken.size ≤ (joined taken chunks).size := by
  induction chunks generalizing taken with
  | nil => exact Nat.le_refl _
  | cons chunk chunks ih =>
    have hstep := ih (taken ++ chunk)
    rw [ByteArray.size_append] at hstep
    rw [joined_cons]
    omega

lemma joined_starts (taken : ByteArray) (chunks : List ByteArray) :
    ∃ rest, joined taken chunks = taken ++ rest := by
  induction chunks generalizing taken with
  | nil => exact ⟨.empty, ByteArray.append_empty.symm⟩
  | cons chunk chunks ih =>
    obtain ⟨rest, h⟩ := ih (taken ++ chunk)
    exact ⟨chunk ++ rest, by rw [joined_cons, h, ByteArray.append_assoc]⟩

/-- Only a content without portions is empty. -/
lemma size_joined_eq_zero (h : ∀ chunk ∈ chunks, chunk.size ≠ 0) :
    (joined .empty chunks).size = 0 ↔ chunks = [] := by
  cases chunks with
  | nil => exact ⟨fun _ => rfl, fun _ => rfl⟩
  | cons chunk chunks =>
    have hpos := h chunk (by simp)
    have hle := size_le_joined (.empty ++ chunk) chunks
    rw [ByteArray.size_append] at hle
    rw [joined_cons]
    constructor
    · intro hz
      omega
    · intro hz
      cases hz

/-! ## Cutting a content into portions -/

lemma extract_of_size_le {bytes : ByteArray} {stop : Nat} (h : bytes.size ≤ stop) :
    bytes.extract 0 stop = bytes := by
  have hrest : bytes.extract bytes.size stop = .empty := by
    rw [ByteArray.extract_eq_empty_iff]
    omega
  rw [ByteArray.extract_eq_extract_append_extract bytes.size (Nat.zero_le _) h,
    ByteArray.extract_zero_size, hrest, ByteArray.append_empty]

/-- Portions from a start on complete what stands before the start, if the fuel lasts. -/
lemma joined_cutFrom {bytes : ByteArray} {portion fuel start : Nat}
    (hf : bytes.size < start + fuel * portion) :
    joined (bytes.extract 0 start) (cutFrom bytes portion fuel start) = bytes := by
  induction fuel generalizing start with
  | zero => exact extract_of_size_le (by omega)
  | succ fuel ih =>
    rw [Nat.succ_mul] at hf
    rw [cutFrom]
    split
    · exact extract_of_size_le (by assumption)
    · rw [joined_cons, ← ByteArray.extract_eq_extract_append_extract start (Nat.zero_le _)
        (by omega)]
      exact ih (by omega)

lemma size_ne_zero_of_mem_cutFrom {bytes : ByteArray} {portion fuel start : Nat} (hp : 0 < portion)
    (h : chunk ∈ cutFrom bytes portion fuel start) : chunk.size ≠ 0 := by
  induction fuel generalizing start with
  | zero => cases h
  | succ fuel ih =>
    rw [cutFrom] at h
    split at h
    · cases h
    · rcases List.mem_cons.1 h with rfl | h
      · rw [ByteArray.size_extract]
        omega
      · exact ih h

/-- The portions of a content make up the content. -/
lemma joined_cut {portion : Nat} (hp : 0 < portion) (bytes : ByteArray) :
    joined .empty (cut portion bytes) = bytes := by
  have hfuel : bytes.size < 0 + (bytes.size / portion + 1) * portion := by
    rw [Nat.zero_add, Nat.mul_comm]
    exact Nat.lt_mul_div_succ bytes.size hp
  have hstart : bytes.extract 0 0 = .empty := by
    rw [ByteArray.extract_eq_empty_iff]
    omega
  have hjoined := joined_cutFrom hfuel
  rwa [hstart] at hjoined

/-- The usual portions of a content are read to the end and make up the content. -/
theorem readable_ofBytes (bytes : ByteArray) :
    (ofBytes bytes).Readable ∧ joined .empty (ofBytes bytes).chunks = bytes := by
  have hpos : 0 < chunkBytes := by decide
  exact ⟨⟨rfl, fun chunk hm => size_ne_zero_of_mem_cutFrom hpos hm⟩, joined_cut hpos bytes⟩

end Stream

namespace Extraction

variable {config : Config} {taken : ByteArray} {chunks : List ByteArray} {before : Int}

/-- Portions are all taken in if there are none, or if together they are within the limits. -/
lemma takeIn_eq_none_iff (path : String) (hc : ∀ chunk ∈ chunks, chunk.size ≠ 0) :
    (takeIn config path before none taken chunks).2 = none ↔
      chunks = [] ∨ ((Stream.joined taken chunks).size : Int) ≤ config.maxFileBytes ∧
        before + (Stream.joined taken chunks).size ≤ config.maxTotalBytes := by
  induction chunks generalizing taken with
  | nil => exact ⟨fun _ => .inl rfl, fun _ => rfl⟩
  | cons chunk chunks ih =>
    have hle := Stream.size_le_joined (taken ++ chunk) chunks
    rw [ByteArray.size_append] at hle
    rw [takeIn, if_neg (hc chunk (by simp)), Stream.joined_cons]
    cases hb : breach? config before (taken.size + chunk.size) with
    | some limit =>
      constructor
      · intro hn
        cases hn
      · rintro (hn | ⟨hfile, htotal⟩)
        · cases hn
        · -- The whole is within the limits, so this part of it is.
          have hnone : breach? config before (taken.size + chunk.size) = none :=
            breach?_eq_none.2 ⟨by omega, by omega⟩
          rw [hnone] at hb
          cases hb
    | none =>
      have hfit := breach?_eq_none.1 hb
      dsimp only
      rw [ih fun other ho => hc other (List.mem_cons_of_mem _ ho)]
      constructor
      · rintro (rfl | h)
        · refine .inr ?_
          rw [Stream.joined, List.foldl_nil, ByteArray.size_append]
          omega
        · exact .inr h
      · rintro (h | h)
        · cases h
        · exact .inr h

/-- What is taken in without a breach is everything. -/
lemma takeIn_all (path : String) (hc : ∀ chunk ∈ chunks, chunk.size ≠ 0)
    (h : (takeIn config path before none taken chunks).2 = none) :
    (takeIn config path before none taken chunks).1 = Stream.joined taken chunks := by
  induction chunks generalizing taken with
  | nil => rfl
  | cons chunk chunks ih =>
    rw [takeIn, if_neg (hc chunk (by simp))] at h ⊢
    cases hb : breach? config before (taken.size + chunk.size) with
    | some limit =>
      rw [hb] at h
      cases h
    | none =>
      rw [hb] at h
      exact ih (fun other ho => hc other (List.mem_cons_of_mem _ ho)) h

/-- What is taken in is a beginning of the content. -/
lemma takeIn_starts (config : Config) (path : String) (before : Int) (failure : Option Failure)
    (taken : ByteArray) (chunks : List ByteArray) :
    ∃ rest, Stream.joined taken chunks =
      (takeIn config path before failure taken chunks).1 ++ rest := by
  induction chunks generalizing taken with
  | nil => exact ⟨.empty, ByteArray.append_empty.symm⟩
  | cons chunk chunks ih =>
    have hstop : ∃ rest, Stream.joined taken (chunk :: chunks) = taken ++ rest :=
      Stream.joined_starts taken (chunk :: chunks)
    rw [takeIn]
    split
    · exact hstop
    split
    · exact hstop
    · exact ih (taken ++ chunk)

/-- The content of a readable entry is taken in to its end exactly if it is empty or within the
limits, and then all of it. -/
lemma takeIn_readable {entry : ArchiveEntry} {stream : Stream} {content : ByteArray} (path : String)
    (hc : entry.content () = .ok stream) (hr : stream.Readable) :
    takeIn config path before stream.failure .empty stream.chunks = (content, none) ↔
      content = entry.bytes ∧
      (entry.bytes.size = 0 ∨ (entry.bytes.size : Int) ≤ config.maxFileBytes ∧
        before + entry.bytes.size ≤ config.maxTotalBytes) := by
  have hbytes : entry.bytes = Stream.joined .empty stream.chunks := by
    rw [ArchiveEntry.bytes, hc]
  rw [hr.failure, hbytes]
  constructor
  · intro h
    have hnone : (takeIn config path before none .empty stream.chunks).2 = none := by
      rw [h]
    have hall := takeIn_all path hr.portions hnone
    rw [h] at hall
    exact ⟨hall, ((takeIn_eq_none_iff path hr.portions).1 hnone).imp_left
      (Stream.size_joined_eq_zero hr.portions).2⟩
  · rintro ⟨rfl, h⟩
    have hnone := (takeIn_eq_none_iff path hr.portions).2
      (h.imp_left (Stream.size_joined_eq_zero hr.portions).1)
    exact Prod.ext (takeIn_all path hr.portions hnone) hnone

end Extraction

end SourceAtlas
