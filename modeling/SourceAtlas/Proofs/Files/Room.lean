import SourceAtlas.Proofs.Files.Directories
import SourceAtlas.Proofs.Files.Removal
import SourceAtlas.Proofs.Files.Standing

/-!
# Room for an entry

An entry can be made under a path if the directory that is to hold it stands, nothing stands under
its name, and neither the name nor the path is too long (`FileSystem.HasRoom`).  Then asking for a
new directory or a new file succeeds (`HasRoom.makePath`, `HasRoom.createNew`), and removing what is
not there is no failure (`HasRoom.removePath`).

A path may be cleared of the segments that mean nothing before it is used; that makes it shorter
(`PurePath.size_ofString_le`), so there is room under the one if there is room under the other
(`HasRoom.pure`).
-/

namespace SourceAtlas

open FileSystem

/-! ## The size of a path without dots -/

/-- Parts that are left out make a text shorter. -/
lemma Text.joinWith_sublist {separator : Char} {parts others : List (List Char)}
    (h : parts.Sublist others) :
    (joinWith separator parts).Sublist (joinWith separator others) := by
  induction h with
  | slnil => exact .slnil
  | @cons parts others part h ih =>
    refine ih.trans ?_
    cases others with
    | nil => exact List.nil_sublist _
    | cons next rest =>
      rw [joinWith]
      exact (List.sublist_cons_self _ _).trans (List.sublist_append_right _ _)
  | @cons_cons parts others part h ih =>
    cases others with
    | nil => rw [List.sublist_nil.1 h]
    | cons next rest =>
      cases parts with
      | nil =>
        rw [joinWith, joinWith]
        exact List.sublist_append_left _ _
      | cons first tail =>
        rw [joinWith, joinWith]
        exact (List.Sublist.refl _).append (ih.cons_cons _)

lemma size_le_of_sublist {chars others : List Char} (h : chars.Sublist others) :
    (String.ofList chars).utf8ByteSize ≤ (String.ofList others).utf8ByteSize := by
  have hcons (c : Char) (chars : List Char) : (String.ofList (c :: chars)).utf8ByteSize =
      (String.ofList [c]).utf8ByteSize + (String.ofList chars).utf8ByteSize := by
    rw [← String.utf8ByteSize_append, ← String.ofList_append, List.singleton_append]
  induction h with
  | slnil => exact Nat.le_refl _
  | @cons chars others c h ih =>
    rw [hcons c others]
    omega
  | @cons_cons chars others c h ih =>
    rw [hcons c chars, hcons c others]
    omega

lemma Path.exists_leadingSlashes (chars : List Char) :
    ∃ rest, chars = List.replicate (leadingSlashes chars) '/' ++ rest := by
  unfold leadingSlashes
  split
  · exact ⟨_, rfl⟩
  · exact ⟨_, rfl⟩
  · exact ⟨_, rfl⟩
  · exact ⟨_, rfl⟩

/-- Without the segments that mean nothing a path is no longer. -/
lemma PurePath.size_ofString_le {path : String} (hne : (ofString path).names ≠ []) :
    (ofString path).toString.utf8ByteSize ≤ path.utf8ByteSize := by
  obtain ⟨rest, hrest⟩ := Path.exists_leadingSlashes path.toList
  have hpieces : Path.segments path =
      List.replicate (ofString path).slashes "" ++ Path.segments (String.ofList rest) := by
    rw [Path.segments, Text.pieces, hrest, Path.segments, Text.pieces, String.toList_ofList]
    show _ = List.replicate (Path.leadingSlashes path.toList) "" ++ _
    generalize Path.leadingSlashes path.toList = slashes
    induction slashes with
    | zero => rfl
    | succ slashes ih =>
      rw [List.replicate_succ, List.cons_append, Text.splitOn, if_pos rfl, List.map_cons, ih]
      rfl
  have hnames : ((ofString path).names.map String.toList).Sublist (Text.splitOn '/' rest) := by
    have hfilter : (ofString path).names =
        (Path.segments (String.ofList rest)).filter fun segment =>
          segment ≠ "" ∧ segment ≠ "." := by
      rw [ofString, hpieces, List.filter_append, List.filter_replicate]
      rfl
    have hall : (Path.segments (String.ofList rest)).map String.toList = Text.splitOn '/' rest := by
      rw [Path.segments, Text.pieces, String.toList_ofList, List.map_map]
      simp [Function.comp_def]
    rw [hfilter, ← hall]
    exact List.filter_sublist.map _
  have hsublist : (ofString path).toString.toList.Sublist path.toList := by
    have htext : (ofString path).toString.toList =
        List.replicate (Path.leadingSlashes path.toList) '/' ++
          Text.joinWith '/' ((ofString path).names.map String.toList) := toList_toString hne
    have hjoined : (Text.joinWith '/' ((ofString path).names.map String.toList)).Sublist rest := by
      rw [← Text.joinWith_splitOn '/' rest]
      exact Text.joinWith_sublist hnames
    rw [htext]
    refine ((List.Sublist.refl _).append hjoined).trans ?_
    rw [← hrest]
  have hsize := size_le_of_sublist hsublist
  rwa [String.ofList_toList, String.ofList_toList] at hsize

/-! ## Room -/

namespace FileSystem

/-- A file is read as before where a tree has been put next to it. -/
lemma Planted.readFile {fs fs' : FileSystem} {place : Location} {path : String}
    {content : ByteArray} (h : fs.Planted fs' place) (hread : fs.readFile path = .ok content) :
    fs'.readFile path = .ok content := by
  rw [FileSystem.readFile] at hread ⊢
  split at hread
  · cases hread
  next location hl =>
    rw [locate_of_grows (h.grows (.refl fs) h.missing) hl]
    split at hread
    · next hf =>
      have hout : ¬ place <+: location := fun hp => by
        rw [get?_eq_none_of_above h.missing hp] at hf
        cases hf
      dsimp only
      rw [h.outside location hout, hf]
      exact hread
    · cases hread
    · cases hread

variable {fs fs' : FileSystem} {dir name text : String} {place : Location}

/-- An entry of a directory can be made under a path. -/
structure HasRoom (fs : FileSystem) (dir name text : String) (place : Location) : Prop where
  leads : fs.LeadsTo dir place
  named : NamedText dir name text
  valid : ValidName name
  size_le : text.utf8ByteSize ≤ maxPathBytes
  missing : fs.get? (place ++ [name]) = none

namespace HasRoom

/-- There is room for a name behind the path of a directory. -/
lemma append (hl : fs.LeadsTo dir place) (hn : ValidName name)
    (hs : (Path.append dir name).utf8ByteSize ≤ maxPathBytes)
    (hm : fs.get? (place ++ [name]) = none) :
    fs.HasRoom dir name (Path.append dir name) place :=
  ⟨hl, (entryText_append hl.ne_empty hn.plain).toNamedText, hn, hs, hm⟩

lemma checkText (h : fs.HasRoom dir name text place) : FileSystem.checkText text = .ok () :=
  checkText_of_named h.named h.leads.text h.valid h.size_le

lemma walkText (h : fs.HasRoom dir name text place) (followLast : Bool) :
    fs.walkText followLast text (bareRoute text) = .ok (.vacant place name) :=
  h.leads.walkText_missing h.named h.valid.plain h.valid.size_le h.checkText h.missing followLast

lemma vacant (h : fs.HasRoom dir name text place) : fs.Vacant (place ++ [name]) :=
  FileSystem.walkText_vacant (h.walkText false)

lemma node?_none (h : fs.HasRoom dir name text place) : fs.node? text = none :=
  h.leads.node?_none h.named h.valid.plain h.missing

lemma makeDirectory (h : fs.HasRoom dir name text place) :
    fs.makeDirectory text = .ok (fs.insert (place ++ [name]) .directory) := by
  rw [FileSystem.makeDirectory, h.walkText]

lemma createNew (h : fs.HasRoom dir name text place) (hlast : text.toList.getLast? ≠ some '/') :
    fs.createNew text = .ok (place ++ [name], fs.insert (place ++ [name]) (.file .empty)) := by
  rw [FileSystem.createNew, lookup, route_eq_of_last hlast, h.walkText]

/-- There is as much room under a path without the segments that mean nothing. -/
lemma pure (h : fs.HasRoom dir name text place) :
    fs.HasRoom dir name (PurePath.ofString text).toString place := by
  have hne : (PurePath.ofString text).names ≠ [] := by
    rw [h.named.names_pure h.valid.plain]
    simp
  exact ⟨h.leads, (h.named.pure h.valid.plain).toNamedText, h.valid,
    (PurePath.size_ofString_le hne).trans h.size_le, h.missing⟩

lemma makePath (h : fs.HasRoom dir name text place) :
    (Action.makePath false (PurePath.ofString text)).on fs =
      (.ok (), fs.insert (place ++ [name]) .directory) := by
  have hmade := h.pure.makeDirectory
  rw [Action.on_makePath false (by rw [hmade]; simp), Action.on_makeOne, hmade]

/-- What is not there need not be removed. -/
lemma removePath (h : fs.HasRoom dir name text place) :
    (Action.removePath (some text)).on fs = (.ok false, fs) := by
  have hdir : fs.leadsToDirectory text = false := by
    rw [leadsToDirectory, h.node?_none]
    rfl
  have hentry : (Action.removeEntry text).on fs = (.error (.file (.os .notFound)), fs) := by
    rw [Action.on_removeEntry_of_not_directory hdir, Action.on_change, unlink, h.walkText]
  rw [Action.on_removePath h.named.ne_empty, hentry]
  rfl

/-- The directory that is made. -/
lemma planted (h : fs.HasRoom dir name text place) :
    fs.Planted (fs.insert (place ++ [name]) .directory) (place ++ [name]) := by
  have hv := h.vacant
  refine ⟨⟨(insert_grows hv).workingDirectory, fun location hp => ?_⟩, h.missing, ?_⟩
  · rw [get?_insert hv, if_neg]
    rintro rfl
    exact hp (List.prefix_refl _)
  · rw [isDirectory, get?_insert hv, if_pos rfl]

/-- A directory that has been made where there was room for it is found by the path it was
asked for. -/
lemma leadsTo (h : fs.HasRoom dir name text place) (hp : fs.Planted fs' (place ++ [name])) :
    fs'.LeadsTo text (place ++ [name]) :=
  leadsTo_iff_locate.2
    ⟨(h.leads.grows (hp.grows (.refl fs) h.missing)).locate_directory h.named h.valid.plain
    h.checkText hp.isDirectory true, hp.isDirectory⟩

/-- What has been made is removed. -/
lemma removePath_planted (h : fs.HasRoom dir name text place)
    (hp : fs.Planted fs' (place ++ [name])) :
    ∃ fs'', (Action.removePath (some text)).on fs' = (.ok true, fs'') := by
  obtain ⟨fs'', hrun, -⟩ :=
    Action.removePath_directory h.leads (hp.grows (.refl fs) h.missing) h.missing h.named
    h.valid.plain h.checkText hp.isDirectory
  exact ⟨fs'', hrun⟩

/-- Room is not taken by what is put elsewhere. -/
lemma grows (h : fs.HasRoom dir name text place) (hg : fs.Grows fs')
    (hnone : fs'.get? (place ++ [name]) = none) : fs'.HasRoom dir name text place :=
  ⟨h.leads.grows hg, h.named, h.valid, h.size_le, hnone⟩

end HasRoom

end FileSystem

end SourceAtlas
