import SourceAtlas.Proofs.Path.Text

/-!
# Where a walk ends

Facts about `FileSystem.advance` and `FileSystem.walk` that do not depend on the path.

* A walk that ends at an entry ends at the same entry after the file system has grown
  (`FileSystem.Grows`): nothing that a walk looks at on its way to an entry can be hidden by what is
  added elsewhere, nor by a new content of a file.
* A walk that ends at a vacant place names a place where an entry can be added, and after an entry
  has been added there it ends at that entry.
* A walk along a location that no link lies on (`FileSystem.Straight`) can only end at that
  location, or be stopped.
-/

namespace SourceAtlas

/-- A node without the content of a file. -/
def Node.kind : Node → Node
  | .file _ => .file .empty
  | node => node

@[simp] lemma Node.kind_eq_directory {node : Node} :
    node.kind = .directory ↔ node = .directory := by
  cases node <;> simp [kind]

@[simp] lemma Node.kind_eq_link {node : Node} {target : String} :
    node.kind = .link target ↔ node = .link target := by
  cases node <;> simp [kind]

namespace FileSystem

variable {fs fs' : FileSystem} {followLast : Bool} {here : Location} {name : String}
  {rest names : List String}

/-! ## One step of a walk -/

lemma advance_dot (h : fs.isDirectory here) :
    fs.advance followLast here ("." :: rest) = fs.advance followLast here rest := by
  unfold isDirectory at h
  simp [advance, h]

lemma advance_dots (h : fs.isDirectory here) (count : Nat) :
    fs.advance followLast here (List.replicate count "." ++ rest) =
      fs.advance followLast here rest := by
  induction count with
  | zero => rfl
  | succ count ih => rw [List.replicate_succ, List.cons_append, advance_dot h, ih]

lemma advance_up (h : fs.isDirectory here) :
    fs.advance followLast here (".." :: rest) = fs.advance followLast here.dropLast rest := by
  unfold isDirectory at h
  simp [advance, h]

/-- A name that leads down, in a directory that exists. -/
structure Descends (fs : FileSystem) (here : Location) (name : String) : Prop where
  isDirectory : fs.isDirectory here
  ne_dot : name ≠ "."
  ne_up : name ≠ ".."
  size_le : name.utf8ByteSize ≤ maxNameBytes

lemma Descends.advance_down {node : Node} (h : fs.Descends here name)
    (hn : fs.get? (here ++ [name]) = some node) (hl : ∀ target, node ≠ .link target) :
    fs.advance followLast here (name :: rest) = fs.advance followLast (here ++ [name]) rest := by
  have hd : fs.get? here = some .directory := h.isDirectory
  rw [advance, hd]
  simp only [h.ne_dot, h.ne_up, Nat.not_lt.2 h.size_le, if_false, hn]

lemma Descends.advance_link {target : String} (h : fs.Descends here name)
    (hn : fs.get? (here ++ [name]) = some (.link target)) :
    fs.advance followLast here (name :: rest) =
      if rest = [] ∧ followLast = false then .arrived (.entry (here ++ [name]))
      else .detour (origin target here) (route target ++ rest) := by
  have hd : fs.get? here = some .directory := h.isDirectory
  rw [advance, hd]
  simp only [h.ne_dot, h.ne_up, Nat.not_lt.2 h.size_le, if_false, hn]

lemma Descends.advance_missing (h : fs.Descends here name) (hn : fs.get? (here ++ [name]) = none) :
    fs.advance followLast here (name :: rest) =
      if rest = [] then .arrived (.vacant here name) else .stopped .notFound := by
  have hd : fs.get? here = some .directory := h.isDirectory
  rw [advance, hd]
  simp only [h.ne_dot, h.ne_up, Nat.not_lt.2 h.size_le, if_false, hn]

/-! ## Growing -/

/-- A file system with everything that another one has, up to the content of files. -/
structure Grows (fs fs' : FileSystem) : Prop where
  workingDirectory : fs'.workingDirectory = fs.workingDirectory
  kind : ∀ {location node}, fs.get? location = some node →
    ∃ node', fs'.get? location = some node' ∧ node'.kind = node.kind

namespace Grows

lemma refl (fs : FileSystem) : fs.Grows fs :=
  ⟨rfl, fun h => ⟨_, h, rfl⟩⟩

lemma trans {fs'' : FileSystem} (h : fs.Grows fs') (h' : fs'.Grows fs'') : fs.Grows fs'' := by
  constructor
  · exact h'.workingDirectory.trans h.workingDirectory
  · intro location node hn
    obtain ⟨node', hn', hk⟩ := h.kind hn
    obtain ⟨node'', hn'', hk'⟩ := h'.kind hn'
    exact ⟨node'', hn'', hk'.trans hk⟩

lemma isDirectory (h : fs.Grows fs') {location : Location} (hd : fs.isDirectory location) :
    fs'.isDirectory location := by
  obtain ⟨node', hn', hk⟩ := h.kind hd
  rw [Node.kind_eq_directory.1 (hk.trans rfl)] at hn'
  exact hn'

lemma link (h : fs.Grows fs') {location : Location} {target : String}
    (hl : fs.get? location = some (.link target)) : fs'.get? location = some (.link target) := by
  obtain ⟨node', hn', hk⟩ := h.kind hl
  rwa [Node.kind_eq_link.1 (hk.trans rfl)] at hn'

lemma descends (h : fs.Grows fs') (hd : fs.Descends here name) : fs'.Descends here name :=
  ⟨h.isDirectory hd.isDirectory, hd.ne_dot, hd.ne_up, hd.size_le⟩

end Grows

end FileSystem

/-- A leg that depends on nothing but entries that exist. -/
def Leg.IsFirm : Leg → Prop
  | .arrived (.entry _) => True
  | .detour _ _ => True
  | _ => False

namespace FileSystem

variable {fs fs' : FileSystem} {followLast : Bool} {budget : Nat} {here location : Location}
  {name : String} {names : List String}

lemma advance_eq_of_grows (hg : fs.Grows fs')
    (hf : (fs.advance followLast here names).IsFirm) :
    fs'.advance followLast here names = fs.advance followLast here names := by
  fun_induction fs.advance followLast here names with
  | case1 here => rfl
  | case2 here name rest hn => exact hf.elim
  | case3 here rest hd ih => rw [advance_dot (hg.isDirectory hd), ih hf]
  | case4 here rest hd _ ih => rw [advance_up (hg.isDirectory hd), ih hf]
  | case5 => exact hf.elim
  | case6 => exact hf.elim
  | case7 => exact hf.elim
  | case8 here name rest hd h1 h2 h3 target hl hlast =>
    have hd' : fs'.Descends here name := hg.descends ⟨hd, h1, h2, Nat.not_lt.1 h3⟩
    rw [hd'.advance_link (hg.link hl), if_pos hlast]
  | case9 here name rest hd h1 h2 h3 target hl hlast =>
    have hd' : fs'.Descends here name := hg.descends ⟨hd, h1, h2, Nat.not_lt.1 h3⟩
    rw [hd'.advance_link (hg.link hl), if_neg hlast]
  | case10 here name rest hd h1 h2 h3 node hlink hn ih =>
    have hd' : fs'.Descends here name := hg.descends ⟨hd, h1, h2, Nat.not_lt.1 h3⟩
    obtain ⟨node', hn', hk⟩ := hg.kind hn
    have hlink' : ∀ target, node' ≠ .link target := fun target he =>
      hlink target (Node.kind_eq_link.1 (hk.symm.trans (Node.kind_eq_link.2 he)))
    rw [hd'.advance_down hn' hlink', ih hf]
  | case11 => exact hf.elim

/-! ## Induction along the legs of a walk -/

lemma walk_of_arrived {arrival : Arrival}
    (h : fs.advance followLast here names = .arrived arrival) :
    fs.walk followLast budget here names = .ok arrival := by
  cases budget <;> rw [walk, h]

lemma walk_of_stopped {code : Errno} (h : fs.advance followLast here names = .stopped code) :
    fs.walk followLast budget here names = .error code := by
  cases budget <;> rw [walk, h]

lemma walk_of_detour {start : Location} {onward : List String}
    (h : fs.advance followLast here names = .detour start onward) :
    fs.walk followLast (budget + 1) here names = fs.walk followLast budget start onward := by
  rw [walk, h]

/-- What holds of the last leg, and of a leg with a detour if it holds of the walk from there, holds
of every walk that is not stopped. -/
lemma walk_induction {arrival : Arrival} {motive : Nat → Location → List String → Prop}
    (last : ∀ budget here names, fs.advance followLast here names = .arrived arrival →
      motive budget here names)
    (detour : ∀ budget here names start onward,
      fs.advance followLast here names = .detour start onward → motive budget start onward →
        motive (budget + 1) here names)
    (h : fs.walk followLast budget here names = .ok arrival) : motive budget here names := by
  induction budget generalizing here names with
  | zero =>
    rw [walk] at h
    split at h
    · rename_i reached ha
      obtain rfl : reached = arrival := by simpa using h
      exact last 0 here names ha
    · cases h
    · cases h
  | succ budget ih =>
    rw [walk] at h
    split at h
    · rename_i reached ha
      obtain rfl : reached = arrival := by simpa using h
      exact last _ here names ha
    · cases h
    · rename_i start onward ha
      exact detour budget here names start onward ha (ih h)

/-- A walk to an entry ends there as well when the file system has grown. -/
lemma walk_entry_of_grows (hg : fs.Grows fs')
    (h : fs.walk followLast budget here names = .ok (.entry location)) :
    fs'.walk followLast budget here names = .ok (.entry location) := by
  refine walk_induction (motive := fun budget here names =>
    fs'.walk followLast budget here names = .ok (.entry location)) ?_ ?_ h
  · intro budget here names ha
    exact walk_of_arrived (by rw [advance_eq_of_grows hg (by rw [ha]; trivial), ha])
  · intro budget here names start onward ha ih
    rw [walk_of_detour (by rw [advance_eq_of_grows hg (by rw [ha]; trivial), ha]), ih]

/-! ## The text of a path -/

/-- The texts that can be looked up. -/
lemma checkText_eq_ok_iff {path : String} : checkText path = .ok () ↔
    '\x00' ∉ path.toList ∧ path ≠ "" ∧ path.utf8ByteSize ≤ maxPathBytes := by
  rw [checkText]
  split
  · simp [*]
  split
  · simp [*]
  split
  · simp [*]
  · simp_all

/-- Why a text is refused. -/
lemma checkText_eq_error {path : String} {e : FileError} (h : checkText path = .error e) :
    e = .nullByte ∨ e = .os .notFound ∧ path = "" ∨
      e = .os .nameTooLong ∧ maxPathBytes < path.utf8ByteSize := by
  unfold checkText at h
  split at h
  · exact .inl (Except.error.inj h).symm
  split at h
  · rename_i hempty
    exact .inr (.inl ⟨(Except.error.inj h).symm, hempty⟩)
  split at h
  · rename_i hlong
    exact .inr (.inr ⟨(Except.error.inj h).symm, hlong⟩)
  · cases h

lemma checkText_ne_notFound {path : String} (hne : path ≠ "") :
    checkText path ≠ .error (.os .notFound) := by
  intro h
  rcases checkText_eq_error h with he | ⟨-, he⟩ | ⟨he, -⟩
  · cases he
  · exact hne he
  · cases he

/-- A walk by text arrives if the text can be looked up and the walk from where it
starts arrives. -/
lemma walkText_eq_ok_iff {path : String} {arrival : Arrival} :
    fs.walkText followLast path names = .ok arrival ↔ checkText path = .ok () ∧
      fs.walk followLast linkBudget (origin path fs.workingDirectory) names = .ok arrival := by
  rw [walkText]
  cases checkText path with
  | error e => simp
  | ok => cases fs.walk followLast linkBudget (origin path fs.workingDirectory) names <;> simp

lemma walkText_entry_of_grows {path : String} (hg : fs.Grows fs')
    (h : fs.walkText followLast path names = .ok (.entry location)) :
    fs'.walkText followLast path names = .ok (.entry location) := by
  obtain ⟨htext, hwalk⟩ := walkText_eq_ok_iff.1 h
  rw [walkText_eq_ok_iff, hg.workingDirectory]
  exact ⟨htext, walk_entry_of_grows hg hwalk⟩

lemma locate_of_grows {path : String} (hg : fs.Grows fs')
    (h : fs.locate followLast path = .ok location) :
    fs'.locate followLast path = .ok location := by
  rw [locate, lookup] at h ⊢
  split at h
  · cases h
  · next hw =>
    rw [walkText_entry_of_grows hg hw]
    exact h
  · cases h

/-! ## Ends of a walk -/

/-- A place where a walk found nothing. -/
structure OpenPlace (fs : FileSystem) (parent : Location) (name : String) : Prop where
  descends : fs.Descends parent name
  get? : fs.get? (parent ++ [name]) = none

lemma advance_vacant {parent : Location}
    (h : fs.advance followLast here names = .arrived (.vacant parent name)) :
    fs.OpenPlace parent name ∧ names.getLast? = some name := by
  fun_induction fs.advance followLast here names with
  | case3 here rest hd ih =>
    obtain ⟨hv, hlast⟩ := ih h
    exact ⟨hv, by rw [List.getLast?_cons, hlast]; rfl⟩
  | case4 here rest hd _ ih =>
    obtain ⟨hv, hlast⟩ := ih h
    exact ⟨hv, by rw [List.getLast?_cons, hlast]; rfl⟩
  | case6 here last hd h1 h2 h3 hn =>
    obtain ⟨rfl, rfl⟩ : here = parent ∧ last = name := by simpa using h
    exact ⟨⟨⟨hd, h1, h2, Nat.not_lt.1 h3⟩, hn⟩, rfl⟩
  | case10 here first rest hd h1 h2 h3 node hlink hn ih =>
    obtain ⟨hv, hlast⟩ := ih h
    exact ⟨hv, by rw [List.getLast?_cons, hlast]; rfl⟩
  | _ => cases h

/-- If a link at the very end is not to be followed, a detour leads on to the same last name. -/
lemma advance_detour {start : Location} {onward : List String}
    (h : fs.advance false here names = .detour start onward) :
    onward.getLast? = names.getLast? := by
  have hne {here : Location} {rest : List String}
      (h : fs.advance false here rest = .detour start onward) : rest ≠ [] := by
    rintro rfl
    simp [advance] at h
  fun_induction fs.advance false here names with
  | case3 here rest hd ih => rw [ih h, List.getLast?_cons_of_ne_nil (hne h)]
  | case4 here rest hd _ ih => rw [ih h, List.getLast?_cons_of_ne_nil (hne h)]
  | case9 here name rest hd h1 h2 h3 target hl hlast =>
    obtain ⟨-, rfl⟩ : _ ∧ route target ++ rest = onward := by simpa using h
    have hr : rest ≠ [] := fun he => hlast ⟨he, rfl⟩
    rw [List.getLast?_append_of_ne_nil _ hr, List.getLast?_cons_of_ne_nil hr]
  | case10 here first rest hd h1 h2 h3 node hlink hn ih =>
    rw [ih h, List.getLast?_cons_of_ne_nil (hne h)]
  | _ => cases h

/-- A walk that finds nothing ends in a directory.  If it does not follow a link at the very end,
what it looked for there is the last name of the path. -/
lemma walk_vacant {parent : Location}
    (h : fs.walk followLast budget here names = .ok (.vacant parent name)) :
    fs.OpenPlace parent name ∧ (followLast = false → names.getLast? = some name) := by
  refine walk_induction (motive := fun _ _ names =>
    fs.OpenPlace parent name ∧ (followLast = false → names.getLast? = some name)) ?_ ?_ h
  · intro _ here names ha
    exact ⟨(advance_vacant ha).1, fun _ => (advance_vacant ha).2⟩
  · intro _ here names start onward ha ih
    refine ⟨ih.1, ?_⟩
    rintro rfl
    rw [← advance_detour ha]
    exact ih.2 rfl

/-- Where a walk found nothing, it finds what has been put there. -/
lemma advance_filled {parent : Location} {node : Node} (hg : fs.Grows fs')
    (hn : fs'.get? (parent ++ [name]) = some node) (hl : ∀ target, node ≠ .link target)
    (h : fs.advance followLast here names = .arrived (.vacant parent name)) :
    fs'.advance followLast here names = .arrived (.entry (parent ++ [name])) := by
  fun_induction fs.advance followLast here names with
  | case3 here rest hd ih => rw [advance_dot (hg.isDirectory hd), ih h]
  | case4 here rest hd _ ih => rw [advance_up (hg.isDirectory hd), ih h]
  | case6 here last hd h1 h2 h3 _ =>
    obtain ⟨rfl, rfl⟩ : here = parent ∧ last = name := by simpa using h
    have hd' : fs'.Descends here last := hg.descends ⟨hd, h1, h2, Nat.not_lt.1 h3⟩
    rw [hd'.advance_down hn hl, advance]
  | case10 here first rest hd h1 h2 h3 other hlink ho ih =>
    have hd' : fs'.Descends here first := hg.descends ⟨hd, h1, h2, Nat.not_lt.1 h3⟩
    obtain ⟨other', ho', hk⟩ := hg.kind ho
    have hlink' : ∀ target, other' ≠ .link target := fun target he =>
      hlink target (Node.kind_eq_link.1 (hk.symm.trans (Node.kind_eq_link.2 he)))
    rw [hd'.advance_down ho' hlink', ih h]
  | _ => cases h

lemma walk_filled {parent : Location} {node : Node} (hg : fs.Grows fs')
    (hn : fs'.get? (parent ++ [name]) = some node) (hl : ∀ target, node ≠ .link target)
    (h : fs.walk followLast budget here names = .ok (.vacant parent name)) :
    fs'.walk followLast budget here names = .ok (.entry (parent ++ [name])) := by
  refine walk_induction (motive := fun budget here names =>
    fs'.walk followLast budget here names = .ok (.entry (parent ++ [name]))) ?_ ?_ h
  · intro budget here names ha
    exact walk_of_arrived (advance_filled hg hn hl ha)
  · intro budget here names start onward ha ih
    rw [walk_of_detour (by rw [advance_eq_of_grows hg (by rw [ha]; trivial), ha]), ih]

end FileSystem

end SourceAtlas
