import SourceAtlas.Proofs.Files.Onward
import SourceAtlas.Proofs.Path.Parts

/-!
# Entries of a directory by path

A directory is known by a path text that leads to it (`FileSystem.LeadsTo`).  An entry of it is
asked for by a text that has the name of the entry behind that path (`NamedText`): with the name put
behind the text of the directory, or with the segments dropped that mean nothing.  Either way the
walk ends at the place of the entry, or finds it vacant, or the text or the name is refused
(`walkText_entry`, `walkText_none`).  If slashes trail the text, it still finds a directory
(`locate_directory`), but a file only without them (`EntryText`).

Accordingly a new file is created only where nothing stands (`createNew_cases`), and so is a
directory (`makeDirectory_cases`).  Where the walk of such a text arrives, the directory was found
on the way (`LeadsTo.of_arrival`).
-/

namespace SourceAtlas

open FileSystem

/-- A text that asks for an entry of a directory by its name.  If slashes trail it, it asks for a
directory. -/
structure NamedText (dir name text : String) : Prop where
  names : ∃ names, Undotted (bareRoute dir) names ∧ bareRoute text = names ++ [name]
  isAbsolute : Path.isAbsolute text = Path.isAbsolute dir

/-- A text that asks for an entry of a directory by its name and ends in it. -/
structure EntryText (dir name text : String) : Prop extends NamedText dir name text where
  last : text.toList.getLast? ≠ some '/'

lemma entryText_append {dir name : String} (hd : dir ≠ "") (hn : PlainName name) :
    EntryText dir name (Path.append dir name) :=
  ⟨⟨⟨bareRoute dir, .refl _, Path.bareRoute_append hd hn.1 hn.2.2.2⟩,
    Path.isAbsolute_append hd hn.2.2.2⟩, Path.getLast?_append hd hn.1 hn.2.2.2⟩

lemma PurePath.names_eq_filter (path : String) :
    (ofString path).names = (bareRoute path).filter fun name => decide (name ≠ ".") := by
  rw [ofString, bareRoute, List.filter_filter]
  refine List.filter_congr ?_
  intro name _
  by_cases hn : name = "" <;> simp [hn]

lemma PurePath.isAbsolute_toString {slashes : Nat} {names : List String} (hne : names ≠ [])
    (h : ∀ name ∈ names, name ≠ "" ∧ '/' ∉ name.toList) :
    Path.isAbsolute (toString ⟨slashes, names⟩) = decide (slashes ≠ 0) := by
  obtain ⟨first, rest, rfl⟩ := List.exists_cons_of_ne_nil hne
  have hfirst := h first (by simp)
  cases slashes with
  | zero =>
    have htext : toString ⟨0, first :: rest⟩ = Path.ofSegments (first :: rest) := by
      simp [toString]
    rw [htext, Path.isAbsolute_ofSegments hfirst.1 hfirst.2]
    rfl
  | succ count =>
    rw [Path.isAbsolute_eq, toList_toString hne, List.replicate_succ]
    simp

/-- The segments that mean nothing do not decide where a path starts. -/
lemma PurePath.isAbsolute_ofString {path : String} (hne : (ofString path).names ≠ []) :
    Path.isAbsolute (ofString path).toString = Path.isAbsolute path := by
  rw [isAbsolute_toString hne fun _ => names_ofString, Path.isAbsolute_eq path]
  simp [ofString, Path.leadingSlashes_eq_zero_iff]

namespace NamedText

variable {dir name text : String}

lemma ne_empty (h : NamedText dir name text) : text ≠ "" := by
  rintro rfl
  obtain ⟨names, -, hb⟩ := h.names
  have hnil : bareRoute "" = [] := rfl
  rw [hnil] at hb
  simp at hb

lemma getLast?_bareRoute (h : NamedText dir name text) : (bareRoute text).getLast? = some name := by
  obtain ⟨names, -, hb⟩ := h.names
  rw [hb, List.getLast?_append, List.getLast?_singleton, Option.some_or]

/-- A text holds no zero character that neither the directory nor the name holds. -/
lemma zero_notMem (h : NamedText dir name text) (hd : '\x00' ∉ dir.toList)
    (hn : '\x00' ∉ name.toList) : '\x00' ∉ text.toList := by
  obtain ⟨names, hu, hb⟩ := h.names
  rw [mem_iff_mem_bareRoute (by decide), hb]
  rintro ⟨other, ho, hz⟩
  rcases List.mem_append.1 ho with ho | ho
  · exact hd ((mem_iff_mem_bareRoute (by decide)).2 ⟨other, hu.subset ho, hz⟩)
  · rw [List.mem_singleton.1 ho] at hz
    exact hn hz

/-- The names of a text that mean something are those of the directory and the name. -/
lemma names_pure (h : NamedText dir name text) (hn : PlainName name) :
    (PurePath.ofString text).names =
      (bareRoute dir).filter (fun name => decide (name ≠ ".")) ++ [name] := by
  obtain ⟨names, hu, hb⟩ := h.names
  rw [PurePath.names_eq_filter, hb, List.filter_append, hu.filter_eq]
  simp [hn.2.1]

lemma slashes_pure (h : NamedText dir name text) :
    (PurePath.ofString text).slashes = 0 ↔ Path.isAbsolute dir = false := by
  rw [← h.isAbsolute, Path.isAbsolute_eq, decide_eq_false_iff_not]
  exact Path.leadingSlashes_eq_zero_iff

/-- The segments that mean nothing can be dropped. -/
lemma pure (h : NamedText dir name text) (hn : PlainName name) :
    EntryText dir name (PurePath.ofString text).toString := by
  have hnames := h.names_pure hn
  have hne : (PurePath.ofString text).names ≠ [] := by simp [hnames]
  have hproper : ∀ name ∈ (PurePath.ofString text).names, name ≠ "" ∧ '/' ∉ name.toList :=
    fun _ => PurePath.names_ofString
  refine ⟨⟨⟨_, .filter (bareRoute dir), ?_⟩, ?_⟩, PurePath.getLast?_toString hne hproper⟩
  · rw [PurePath.bareRoute_toString hne hproper, hnames]
  · rw [PurePath.isAbsolute_ofString hne, h.isAbsolute]

end NamedText

namespace EntryText

variable {dir name text : String}

lemma route (h : EntryText dir name text) : FileSystem.route text = bareRoute text :=
  route_eq_of_last h.last

/-- The name is what such a text ends in. -/
lemma base (h : EntryText dir name text) : Path.base text = name := by
  obtain ⟨names, -, hb⟩ := h.names
  rw [Path.bareRoute_of_base (Path.base_ne_empty h.ne_empty h.last)] at hb
  exact (List.append_singleton_inj.1 hb).2

end EntryText

namespace FileSystem

/-- A path text leads to a directory, links followed. -/
structure LeadsTo (fs : FileSystem) (dir : String) (place : Location) : Prop where
  text : checkText dir = .ok ()
  walk : fs.walk true linkBudget (origin dir fs.workingDirectory) (bareRoute dir) =
    .ok (.entry place)
  isDirectory : fs.isDirectory place

variable {fs fs' : FileSystem} {followLast : Bool} {dir name text : String} {place : Location}
  {node : Node}

lemma route_cases (path : String) :
    route path = bareRoute path ∨ route path = bareRoute path ++ ["."] := by
  rw [route, ← bareRoute]
  split
  · exact .inr rfl
  · exact .inl rfl

/-- The names in a directory are those under which something stands. -/
lemma mem_names_iff : name ∈ fs.names place ↔ ∃ node, fs.get? (place ++ [name]) = some node := by
  simp only [names, List.mem_filterMap, List.mem_filter, beq_iff_eq]
  constructor
  · rintro ⟨⟨location, node⟩, ⟨hm, hd⟩, hlast⟩
    have hne : location ≠ [] := by
      rintro rfl
      cases hlast
    have hlocation : location = place ++ [name] := by
      rw [← hd]
      exact (List.dropLast_append_getLast? name hlast).symm
    exact ⟨node, by rw [← hlocation, get?_eq_some_iff hne]; exact hm⟩
  · rintro ⟨node, hn⟩
    exact ⟨_, ⟨(get?_eq_some_iff (by simp)).1 hn, List.dropLast_concat⟩, List.getLast?_concat⟩

/-- A name that is there in a part of the files is there in all of them. -/
lemma Grows.mem_names (hg : fs.Grows fs') (hm : name ∈ fs.names place) :
    name ∈ fs'.names place := by
  obtain ⟨node, hn⟩ := mem_names_iff.1 hm
  obtain ⟨node', hn', -⟩ := hg.kind hn
  exact mem_names_iff.2 ⟨node', hn'⟩

/-- A directory has one entry of a name. -/
lemma nodup_names (fs : FileSystem) (place : Location) : (fs.names place).Nodup := by
  have hdistinct : fs.entries.Pairwise fun a b => a.1 ≠ b.1 := List.pairwise_map.1 fs.distinct
  rw [names, List.Nodup, List.pairwise_filterMap]
  refine (hdistinct.filter _).imp_of_mem fun {a b} ha hb hne name hl name' hl' he => hne ?_
  obtain ⟨-, ha⟩ := List.mem_filter.1 ha
  obtain ⟨-, hb⟩ := List.mem_filter.1 hb
  rw [beq_iff_eq] at ha hb
  rw [← List.dropLast_append_getLast? name hl, ← List.dropLast_append_getLast? name' hl', ha, hb,
    he]

/-- A beginning of a text that can be looked up can be looked up. -/
lemma checkText_of_prefix {rest : List Char} (h : checkText text = .ok ())
    (ht : text.toList = dir.toList ++ rest) (hne : dir ≠ "") : checkText dir = .ok () := by
  obtain ⟨hz, -, hsize⟩ := checkText_eq_ok_iff.1 h
  have htext : text = dir ++ String.ofList rest := by
    rw [← String.toList_inj, ht, String.toList_append, String.toList_ofList]
  rw [ht, List.mem_append, not_or] at hz
  rw [htext, String.utf8ByteSize_append] at hsize
  exact checkText_eq_ok_iff.2 ⟨hz.1, hne, by omega⟩

/-- A text of an entry can be looked up unless it is too long. -/
lemma checkText_named (ht : NamedText dir name text) (hd : checkText dir = .ok ())
    (hn : ValidName name) :
    checkText text =
      if maxPathBytes < text.utf8ByteSize then .error (.os .nameTooLong) else .ok () := by
  rw [checkText, if_neg (ht.zero_notMem (checkText_eq_ok_iff.1 hd).1 hn.zero_notMem),
    if_neg ht.ne_empty]

lemma checkText_of_named (ht : NamedText dir name text) (hd : checkText dir = .ok ())
    (hn : ValidName name) (hs : text.utf8ByteSize ≤ maxPathBytes) : checkText text = .ok () := by
  rw [checkText_named ht hd hn, if_neg (Nat.not_lt.2 hs)]

/-- A refused text leads nowhere. -/
lemma locate_of_checkText {e : FileError} (followLast : Bool) (h : checkText text = .error e) :
    fs.locate followLast text = .error e := by
  rw [locate, lookup, walkText, h]

lemma node?_of_checkText {e : FileError} (h : checkText text = .error e) :
    fs.node? text = none := by
  rw [node?, locate_of_checkText true h]
  rfl

namespace LeadsTo

lemma grows (h : fs.LeadsTo dir place) (hg : fs.Grows fs') : fs'.LeadsTo dir place := by
  refine ⟨h.text, ?_, hg.isDirectory h.isDirectory⟩
  rw [hg.workingDirectory]
  exact walk_entry_of_grows hg h.walk

lemma ne_empty (h : fs.LeadsTo dir place) : dir ≠ "" :=
  (checkText_eq_ok_iff.1 h.text).2.1

/-- The walk of a text of an entry gets to the directory and goes on with the name. -/
lemma walk_name (h : fs.LeadsTo dir place) (ht : NamedText dir name text) (followLast : Bool) :
    ∃ left, fs.walk followLast linkBudget (origin text fs.workingDirectory) (bareRoute text) =
      fs.walk followLast left place [name] := by
  obtain ⟨names, hu, hb⟩ := ht.names
  have horigin : origin text fs.workingDirectory = origin dir fs.workingDirectory := by
    rw [origin, origin, ht.isAbsolute]
  rw [hb, horigin]
  exact walk_append followLast (walk_undotted hu h.walk) (by simp)

/-- An entry is found by its text. -/
lemma walkText_entry (h : fs.LeadsTo dir place) (ht : NamedText dir name text)
    (hn : PlainName name) (hc : checkText text = .ok ())
    (hnode : fs.get? (place ++ [name]) = some node)
    (hl : followLast = false ∨ ∀ target, node ≠ .link target) :
    fs.walkText followLast text (bareRoute text) = .ok (.entry (place ++ [name])) := by
  obtain ⟨left, hw⟩ := h.walk_name ht followLast
  have hvalid := (parent_of_get? hnode).2
  have hdown : fs.Descends place name := ⟨h.isDirectory, hn.2.1, hn.2.2.1, hvalid.size_le⟩
  have harrived : fs.advance followLast place [name] = .arrived (.entry (place ++ [name])) := by
    by_cases hlink : ∃ target, node = .link target
    · obtain ⟨target, rfl⟩ := hlink
      rw [hdown.advance_link hnode, if_pos ⟨rfl, hl.resolve_right fun hc => hc target rfl⟩]
    · rw [hdown.advance_down hnode (fun target he => hlink ⟨target, he⟩), advance]
  rw [FileSystem.walkText, hc, hw, walk_of_arrived harrived]

/-- Where nothing stands, the walk finds the place vacant unless something is too long. -/
lemma walkText_missing (h : fs.LeadsTo dir place) (ht : NamedText dir name text)
    (hn : PlainName name) (hs : name.utf8ByteSize ≤ maxNameBytes) (hc : checkText text = .ok ())
    (hnone : fs.get? (place ++ [name]) = none) (followLast : Bool) :
    fs.walkText followLast text (bareRoute text) = .ok (.vacant place name) := by
  obtain ⟨left, hw⟩ := h.walk_name ht followLast
  have hdown : fs.Descends place name := ⟨h.isDirectory, hn.2.1, hn.2.2.1, hs⟩
  have harrived : fs.advance followLast place [name] = .arrived (.vacant place name) := by
    rw [hdown.advance_missing hnone, if_pos rfl]
  rw [FileSystem.walkText, hc, hw, walk_of_arrived harrived]

/-- Where nothing stands, the walk finds the place vacant or is refused, but not for a missing
directory. -/
lemma walkText_none (h : fs.LeadsTo dir place) (followLast : Bool) (ht : NamedText dir name text)
    (hn : PlainName name) (hnone : fs.get? (place ++ [name]) = none) :
    fs.walkText followLast text (bareRoute text) = .ok (.vacant place name) ∨
      ∃ e, fs.walkText followLast text (bareRoute text) = .error e ∧ e ≠ .os .notFound := by
  cases hc : checkText text with
  | error e =>
    refine .inr ⟨e, by rw [FileSystem.walkText, hc], ?_⟩
    rintro rfl
    exact checkText_ne_notFound ht.ne_empty hc
  | ok =>
    by_cases hs : name.utf8ByteSize ≤ maxNameBytes
    · exact .inl (h.walkText_missing ht hn hs hc hnone followLast)
    · obtain ⟨left, hw⟩ := h.walk_name ht followLast
      have hd : fs.get? place = some .directory := h.isDirectory
      have hstopped : fs.advance followLast place [name] = .stopped .nameTooLong := by
        simp [advance, hd, hn.2.1, hn.2.2.1, Nat.lt_of_not_le hs]
      exact .inr ⟨.os .nameTooLong,
        by rw [FileSystem.walkText, hc, hw, walk_of_stopped hstopped], by simp⟩

/-- A walk that arrives at an entry, or where one could be, has come through the directory. -/
lemma of_arrival {arrival : Arrival} (hne : dir ≠ "") (hs : dir.utf8ByteSize ≤ maxPathBytes)
    (ht : NamedText dir name text)
    (h : fs.walkText followLast text (bareRoute text) = .ok arrival) :
    ∃ place, fs.LeadsTo dir place := by
  obtain ⟨names, hu, hb⟩ := ht.names
  obtain ⟨htext, hwalk⟩ := walkText_eq_ok_iff.1 h
  have hz : '\x00' ∉ dir.toList := by
    rw [mem_iff_mem_bareRoute (by decide)]
    rintro ⟨other, ho, hz⟩
    rcases hu.mem_or_eq_dot ho with ho | rfl
    · refine (checkText_eq_ok_iff.1 htext).1 ?_
      rw [mem_iff_mem_bareRoute (by decide), hb]
      exact ⟨other, List.mem_append_left _ ho, hz⟩
    · simp at hz
  rw [hb, origin, ht.isAbsolute, ← origin] at hwalk
  obtain ⟨middle, hmiddle, hd⟩ := walk_front_isDirectory (List.cons_ne_nil name []) hwalk
  exact ⟨middle, checkText_eq_ok_iff.2 ⟨hz, hne, hs⟩, walk_dotted hu hd hmiddle, hd⟩

/-! ## Creating an entry -/

/-- A new file is created where nothing stands, or not at all. -/
lemma createNew_cases (h : fs.LeadsTo dir place) (ht : EntryText dir name text)
    (hn : PlainName name) :
    (∃ e, fs.createNew text = .error e) ∨
      (fs.Vacant (place ++ [name]) ∧ checkText text = .ok () ∧
        fs.createNew text = .ok (place ++ [name], fs.insert (place ++ [name]) (.file .empty))) := by
  rw [FileSystem.createNew, lookup, ht.route]
  cases hnode : fs.get? (place ++ [name]) with
  | none =>
    rcases h.walkText_none false ht.toNamedText hn hnode with hw | ⟨e, hw, -⟩
    · rw [hw]
      exact .inr ⟨walkText_vacant hw, (walkText_eq_ok_iff.1 hw).1, rfl⟩
    · rw [hw]
      exact .inl ⟨e, rfl⟩
  | some node =>
    cases hc : checkText text with
    | error e =>
      rw [FileSystem.walkText, hc]
      exact .inl ⟨e, rfl⟩
    | ok =>
      rw [h.walkText_entry ht.toNamedText hn hc hnode (.inl rfl)]
      exact .inl ⟨_, rfl⟩

/-- A directory is made where nothing stands, or it is refused, but not for a missing
directory above. -/
lemma makeDirectory_cases (h : fs.LeadsTo dir place) (ht : NamedText dir name text)
    (hn : PlainName name) :
    (∃ e, fs.makeDirectory text = .error e ∧ e ≠ .os .notFound) ∨
      (fs.Vacant (place ++ [name]) ∧ checkText text = .ok () ∧
        fs.makeDirectory text = .ok (fs.insert (place ++ [name]) .directory)) := by
  rw [FileSystem.makeDirectory]
  cases hnode : fs.get? (place ++ [name]) with
  | none =>
    rcases h.walkText_none false ht hn hnode with hw | ⟨e, hw, he⟩
    · rw [hw]
      exact .inr ⟨walkText_vacant hw, (walkText_eq_ok_iff.1 hw).1, rfl⟩
    · rw [hw]
      exact .inl ⟨e, rfl, he⟩
  | some node =>
    cases hc : checkText text with
    | error e =>
      rw [FileSystem.walkText, hc]
      exact .inl ⟨e, rfl, fun he => checkText_ne_notFound ht.ne_empty (by rw [hc, he])⟩
    | ok =>
      rw [h.walkText_entry ht hn hc hnode (.inl rfl)]
      exact .inl ⟨_, rfl, by simp⟩

/-! ## What an entry leads to -/

lemma locate_entry (h : fs.LeadsTo dir place) (ht : EntryText dir name text) (hn : PlainName name)
    (hc : checkText text = .ok ()) (hnode : fs.get? (place ++ [name]) = some node)
    (hl : followLast = false ∨ ∀ target, node ≠ .link target) :
    fs.locate followLast text = .ok (place ++ [name]) := by
  rw [locate, lookup, ht.route, h.walkText_entry ht.toNamedText hn hc hnode hl]

lemma node?_entry (h : fs.LeadsTo dir place) (ht : EntryText dir name text) (hn : PlainName name)
    (hc : checkText text = .ok ()) (hnode : fs.get? (place ++ [name]) = some node)
    (hl : ∀ target, node ≠ .link target) : fs.node? text = some node := by
  rw [FileSystem.node?, h.locate_entry ht hn hc hnode (.inr hl)]
  exact hnode

lemma readFile_entry {content : ByteArray} (h : fs.LeadsTo dir place) (ht : EntryText dir name text)
    (hn : PlainName name) (hc : checkText text = .ok ())
    (hf : fs.get? (place ++ [name]) = some (.file content)) : fs.readFile text = .ok content := by
  rw [readFile, h.locate_entry ht hn hc hf (.inr (by simp))]
  dsimp only
  rw [hf]

/-- Where nothing stands, a text leads nowhere, whether or not slashes trail it. -/
lemma node?_none (h : fs.LeadsTo dir place) (ht : NamedText dir name text) (hn : PlainName name)
    (hnone : fs.get? (place ++ [name]) = none) : fs.node? text = none := by
  rw [FileSystem.node?, locate, lookup]
  rcases route_cases text with hr | hr
  · rw [hr]
    rcases h.walkText_none true ht hn hnone with hw | ⟨e, hw, -⟩
    · rw [hw]
      rfl
    · rw [hw]
      rfl
  · obtain ⟨names, hu, hb⟩ := ht.names
    have horigin : origin text fs.workingDirectory = origin dir fs.workingDirectory := by
      rw [origin, origin, ht.isAbsolute]
    have hwalk : ∃ code, fs.walk true linkBudget (origin text fs.workingDirectory) (route text) =
        .error code := by
      obtain ⟨left, hw⟩ := walk_append true (walk_undotted hu h.walk) (List.cons_ne_nil name ["."])
      have hstopped : ∃ code, fs.advance true place [name, "."] = .stopped code := by
        rw [advance, show fs.get? place = some .directory from h.isDirectory]
        dsimp only
        rw [if_neg hn.2.1, if_neg hn.2.2.1, hnone]
        split
        · exact ⟨_, rfl⟩
        · exact ⟨_, rfl⟩
      obtain ⟨code, hstopped⟩ := hstopped
      refine ⟨code, ?_⟩
      rw [hr, hb, horigin, List.append_assoc, List.singleton_append, hw, walk_of_stopped hstopped]
    obtain ⟨code, hwalk⟩ := hwalk
    rw [FileSystem.walkText, hwalk]
    cases checkText text with
    | error e => rfl
    | ok => rfl

/-- A directory is found by a text whether or not slashes trail it. -/
lemma locate_directory (h : fs.LeadsTo dir place) (ht : NamedText dir name text)
    (hn : PlainName name) (hc : checkText text = .ok ()) (hd : fs.isDirectory (place ++ [name]))
    (followLast : Bool) :
    fs.locate followLast text = .ok (place ++ [name]) := by
  have hfound (followLast : Bool) :
      fs.walkText followLast text (bareRoute text) = .ok (.entry (place ++ [name])) :=
    h.walkText_entry ht hn hc hd (.inr (by simp))
  have hw : fs.walkText followLast text (route text) = .ok (.entry (place ++ [name])) := by
    rcases route_cases text with hr | hr
    · rw [hr, hfound]
    · rw [hr, walkText_eq_ok_iff]
      exact ⟨hc, walk_dot followLast (walkText_eq_ok_iff.1 (hfound true)).2 hd⟩
  rw [locate, lookup, hw]

end LeadsTo

end FileSystem

end SourceAtlas
