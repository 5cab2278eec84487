import SourceAtlas.Proofs.Path.Parts

/-!
# Accepted entry names go down

What `EntryPath.ofRaw` hands on is a list of plain names that is not empty (`ofRaw_plain`), and
plain names are accepted as they stand (`ofRaw_ofSegments`), so what has been accepted once stays as
it is (`ofRaw_again`).  A walk along such names from any directory goes down with each of them, so
where an entry is written is settled by the names alone as long as no link is met.
-/

namespace SourceAtlas

namespace Path

/-- What the stack of walked segments holds: names, and `..` where nothing was left to take off. -/
lemma push_mem {rooted : Bool} {stack : List String} {segment name : String}
    (h : name ∈ push rooted stack segment) :
    name ∈ stack ∨ name = ".." ∨ (name = segment ∧ name ≠ "" ∧ name ≠ ".") := by
  unfold push at h
  split at h
  · exact .inl h
  rename_i hmeans
  obtain ⟨h1, h2⟩ := not_or.1 hmeans
  split at h
  · split at h
    · split at h
      · cases h
      · exact .inr (.inl (List.mem_singleton.1 h))
    · split at h
      · exact (List.mem_cons.1 h).elim (fun he => .inr (.inl he)) .inl
      · exact .inl (List.mem_cons_of_mem _ h)
  · rcases List.mem_cons.1 h with rfl | h
    · exact .inr (.inr ⟨rfl, h1, h2⟩)
    · exact .inl h

lemma foldl_push_mem {rooted : Bool} {parts stack : List String} {name : String}
    (h : name ∈ parts.foldl (push rooted) stack) :
    name ∈ stack ∨ name = ".." ∨ (name ∈ parts ∧ name ≠ "" ∧ name ≠ ".") := by
  induction parts generalizing stack with
  | nil => exact .inl h
  | cons segment parts ih =>
    rcases ih h with h | h | ⟨h, h1⟩
    · rcases push_mem h with h | h | ⟨rfl, h1⟩
      · exact .inl h
      · exact .inr (.inl h)
      · exact .inr (.inr ⟨by simp, h1⟩)
    · exact .inr (.inl h)
    · exact .inr (.inr ⟨List.mem_cons_of_mem _ h, h1⟩)

/-- A segment of a normal form is `..` or a segment of the path that means something. -/
lemma mem_collapse {rooted : Bool} {parts : List String} {name : String}
    (h : name ∈ collapse rooted parts) :
    name = ".." ∨ (name ∈ parts ∧ name ≠ "" ∧ name ≠ ".") := by
  rcases foldl_push_mem (List.mem_reverse.1 h) with h | h
  · cases h
  · exact h

lemma foldl_push_plain {rooted : Bool} {names stack : List String}
    (h : ∀ name ∈ names, PlainName name) :
    names.foldl (push rooted) stack = names.reverse ++ stack := by
  induction names generalizing stack with
  | nil => rfl
  | cons name names ih =>
    have hn := h name (by simp)
    have hpush : push rooted stack name = name :: stack := by
      simp [push, hn.1, hn.2.1, hn.2.2.1]
    rw [List.foldl_cons, hpush, ih fun other ho => h other (List.mem_cons_of_mem _ ho)]
    simp

/-- Plain names are in normal form. -/
lemma collapse_plain {rooted : Bool} {names : List String} (h : ∀ name ∈ names, PlainName name) :
    collapse rooted names = names := by
  rw [collapse, foldl_push_plain h, List.append_nil, List.reverse_reverse]

lemma slashed_of_notMem {path : String} (h : '\\' ∉ path.toList) : slashed path = path := by
  have hsame : path.toList.map (fun c => if c = '\\' then '/' else c) = path.toList := by
    have hid (c : Char) (hc : c ∈ path.toList) : (if c = '\\' then '/' else c) = id c := by
      have hne : c ≠ '\\' := fun he => h (he ▸ hc)
      rw [if_neg hne, id]
    rw [List.map_congr_left hid, List.map_id]
  rw [slashed, hsame, String.ofList_toList]

lemma backslash_notMem_slashed (path : String) : '\\' ∉ (slashed path).toList := by
  rw [slashed, String.toList_ofList, List.mem_map]
  rintro ⟨c, -, hc⟩
  split at hc
  · cases hc
  · rename_i hne
    exact hne hc

lemma backslash_notMem_ofSegments {names : List String} (h : ∀ name ∈ names, '\\' ∉ name.toList) :
    '\\' ∉ (ofSegments names).toList := by
  rw [ofSegments, Text.join, String.toList_ofList, Text.mem_joinWith (by decide)]
  rintro ⟨part, hp, hb⟩
  obtain ⟨name, hn, rfl⟩ := List.mem_map.1 hp
  exact h name hn hb

end Path

namespace EntryPath

variable {raw : String} {names : List String}

/-- What it takes for an entry name to be accepted. -/
lemma ofRaw_eq_ok (h : ofRaw raw = .ok names) :
    names = Path.collapse false (Path.segments (Path.slashed raw)) ∧ names ≠ [] ∧
      ".." ∉ names := by
  rw [ofRaw] at h
  split at h
  · cases h
  rename_i habs
  rw [Bool.not_eq_true] at habs
  rw [habs] at h
  split at h
  · cases h
  rename_i first rest hnames
  split at h
  · cases h
  split at h
  · cases h
  rename_i hup
  obtain rfl := Except.ok.inj h
  exact ⟨rfl, by simp [hnames], hup⟩

/-- Accepted entry names are plain. -/
theorem ofRaw_plain (h : ofRaw raw = .ok names) : names ≠ [] ∧ ∀ name ∈ names, PlainName name := by
  obtain ⟨hnames, hne, hup⟩ := ofRaw_eq_ok h
  constructor
  · exact hne
  · intro name hn
    have hclimb : name ≠ ".." := fun he => hup (he ▸ hn)
    rw [hnames] at hn
    rcases Path.mem_collapse hn with he | ⟨hmem, h1, h2⟩
    · exact absurd he hclimb
    · exact ⟨h1, h2, hclimb, Path.slash_notMem_of_mem_segments hmem⟩

/-- Plain names are accepted as they stand, unless they hold a backslash or start like a drive. -/
theorem ofRaw_ofSegments {first : String} {rest : List String}
    (hp : ∀ name ∈ first :: rest, PlainName name)
    (hb : ∀ name ∈ first :: rest, '\\' ∉ name.toList) (hd : startsWithDrive first = false) :
    ofRaw (Path.ofSegments (first :: rest)) = .ok (first :: rest) := by
  have hslashed : Path.slashed (Path.ofSegments (first :: rest)) =
      Path.ofSegments (first :: rest) :=
    Path.slashed_of_notMem (Path.backslash_notMem_ofSegments hb)
  have habs : Path.isAbsolute (Path.ofSegments (first :: rest)) = false :=
    Path.isAbsolute_ofSegments (hp first (by simp)).1 (hp first (by simp)).2.2.2
  have hsegments : Path.segments (Path.ofSegments (first :: rest)) = first :: rest :=
    Path.segments_ofSegments (by simp) fun name hn => (hp name hn).2.2.2
  have hcollapse : Path.collapse false (first :: rest) = first :: rest := Path.collapse_plain hp
  rw [ofRaw, hslashed, habs, hsegments, hcollapse]
  have hup : ".." ∉ first :: rest := fun hm => (hp _ hm).2.2.1 rfl
  simp [hd, hup]

lemma startsWithDrive_of_ofRaw {first : String} {rest : List String}
    (h : ofRaw raw = .ok (first :: rest)) : startsWithDrive first = false := by
  have hnames := (ofRaw_eq_ok h).1
  rw [ofRaw] at h
  split at h
  · cases h
  rename_i habs
  rw [Bool.not_eq_true] at habs
  rw [habs, ← hnames] at h
  dsimp only at h
  split at h
  · cases h
  · rename_i hdrive
    exact Bool.not_eq_true _ ▸ hdrive

/-- The characters of an accepted name are those of the text, with slashes for backslashes. -/
lemma mem_slashed_of_ofRaw {name : String} {c : Char} (h : ofRaw raw = .ok names)
    (hn : name ∈ names) (hc : c ∈ name.toList) : c ∈ (Path.slashed raw).toList := by
  obtain ⟨hnames, -, hup⟩ := ofRaw_eq_ok h
  have hclimb : name ≠ ".." := fun he => hup (he ▸ hn)
  rw [hnames] at hn
  obtain ⟨hm, -⟩ := (Path.mem_collapse hn).resolve_left hclimb
  exact Path.mem_of_mem_segments hm hc

lemma backslash_notMem_of_ofRaw (h : ofRaw raw = .ok names) : ∀ name ∈ names, '\\' ∉ name.toList :=
  fun _ hn hb => Path.backslash_notMem_slashed raw (mem_slashed_of_ofRaw h hn hb)

/-- What has been accepted is accepted again and stays as it is. -/
theorem ofRaw_again (h : ofRaw raw = .ok names) : ofRaw (Path.ofSegments names) = .ok names := by
  obtain ⟨hne, hp⟩ := ofRaw_plain h
  obtain ⟨first, rest, rfl⟩ := List.exists_cons_of_ne_nil hne
  exact ofRaw_ofSegments hp (backslash_notMem_of_ofRaw h) (startsWithDrive_of_ofRaw h)

end EntryPath

end SourceAtlas
